import RegistryCache.Proofs.Negotiation.Calls

/-! # Reading the catalog with a client

A client reads the catalog page after page (`RegistryClient.catalogPages`).  What calls answer does not
depend on what was reported before (`RegistryClient.ignoresReports_call`), and each page that is had has
used up a reply, so that reading is bounded (`RegistryClient.run_catalogPages_eq`).
-/

namespace RegistryCache

namespace Session

/-- What is done has the same result, and leads to like sessions, whatever was reported before. -/
def IgnoresReports (m : Exchange α) : Prop :=
  ∀ s s' : Session, s.Like s' → (m.run s).1 = (m.run s').1 ∧ (m.run s).2.Like (m.run s').2

namespace IgnoresReports

theorem pure (a : α) : IgnoresReports (Pure.pure a : Exchange α) := fun _ _ like => ⟨rfl, like⟩

theorem throw (e : RegistryError) : IgnoresReports (MonadExcept.throw e : Exchange α) :=
  fun _ _ like => ⟨rfl, like⟩

theorem lift (r : Except RegistryError α) : IgnoresReports (liftM r : Exchange α) := by
  intro s s' like
  cases r <;> exact ⟨rfl, like⟩

theorem bind {m : Exchange α} {f : α → Exchange β} (first : IgnoresReports m)
    (second : ∀ a, IgnoresReports (f a)) : IgnoresReports (m >>= f) := by
  intro s s' like
  obtain ⟨result, after⟩ := first s s' like
  rw [run_bind, run_bind]
  rcases ran : m.run s with ⟨r, s₁⟩
  rcases ran' : m.run s' with ⟨r', s₁'⟩
  rw [ran, ran'] at result after
  obtain rfl : r = r' := result
  cases r with
  | error e => exact ⟨rfl, after⟩
  | ok a => exact second a s₁ s₁' after

end IgnoresReports

theorem Like.left_eq {s s' : Session} (like : s.Like s') : s.left = s'.left :=
  congrArg (·.replies.length) like.1

end Session

namespace RegistryClient

open Session

variable {c : RegistryClient}

theorem Asks.ignoresReports {m : Exchange α} {q? : Except RegistryError Inquiry}
    {read : Response → Except RegistryError α} (asks : c.Asks m q? read) : IgnoresReports m := by
  intro s s' like
  obtain ⟨result, after⟩ := (asks s).run
  obtain ⟨result', after'⟩ := (asks s').run
  cases q? with
  | error e => exact ⟨result.trans result'.symm, after.trans (like.trans after'.symm)⟩
  | ok q =>
    have same : s.negotiation c.credentials q = s'.negotiation c.credentials q := like.negotiation q
    dsimp only [Except.bind] at result after result' after'
    rw [same] at result after
    exact ⟨result.trans result'.symm, after.trans ((like.past _).trans after'.symm)⟩

variable (c)

theorem ignoresReports_tagPages (repository : String) (bound : Nat) (cursor : Option String) :
    IgnoresReports (c.tagPages repository bound cursor) := by
  induction bound generalizing cursor with
  | zero => exact .throw _
  | succ bound inductionHypothesis =>
    rw [tagPages]
    refine (c.asks_tagPage repository cursor).ignoresReports.bind ?_
    rintro ⟨tags, - | next⟩
    · exact .pure tags
    · exact (inductionHypothesis (some next)).bind fun more => .pure (tags ++ more)

theorem ignoresReports_call (call : Call) : IgnoresReports (c.call call) := by
  cases call with
  | catalogPage cursor => exact (c.asks_catalogPage cursor).ignoresReports
  | tagList repository =>
    intro s s' like
    obtain ⟨result, after⟩ := c.tagList_like_tagPages repository s
    obtain ⟨result', after'⟩ := c.tagList_like_tagPages repository s'
    have same := c.ignoresReports_tagPages repository (s.left + 1) none s s' like
    rw [like.left_eq] at result after same
    exact ⟨result.trans (same.1.trans result'.symm), after.trans (same.2.trans after'.symm)⟩
  | lookup repository reference =>
    obtain ⟨read, asks⟩ := c.asks_lookup repository reference
    exact asks.ignoresReports
  | removal repository digest => exact (c.asks_removal repository digest).ignoresReports

theorem after_cons (s : Session) (call : Call) (later : List Call) :
    c.after s (call :: later) = c.after ((c.call call).run s).2 later := rfl

theorem like_after (calls : List Call) {s s' : Session} (like : s.Like s') :
    (c.after s calls).Like (c.after s' calls) := by
  induction calls generalizing s s' with
  | nil => exact like
  | cons call later inductionHypothesis =>
    exact inductionHypothesis (c.ignoresReports_call call s s' like).2

/-! ## The pages of the catalog -/

/-- Reads the pages of the catalog from a cursor on, at most so many of them. -/
def catalogPages : Nat → Option String → Exchange (List String)
  | 0, _ => throw ((⟨404⟩ : Status).failure "" "catalog listing")
  | bound + 1, cursor => do
    let page ← c.catalogPage cursor
    match ← nextCursor cursor page.next "Catalog" with
    | some next => return page.repositories ++ (← catalogPages bound (some next))
    | none => return page.repositories

theorem run_catalogPages_succ (bound : Nat) (cursor : Option String) (s : Session) :
    (c.catalogPages (bound + 1) cursor).run s =
      match (c.catalogPage cursor).run s with
      | (.error e, s') => (.error e, s')
      | (.ok page, s') =>
        match nextCursor cursor page.next "Catalog" with
        | .error e => (.error e, s')
        | .ok none => (.ok page.repositories, s')
        | .ok (some next) =>
          match (c.catalogPages bound (some next)).run s' with
          | (.error e, s'') => (.error e, s'')
          | (.ok more, s'') => (.ok (page.repositories ++ more), s'') := by
  rw [catalogPages, run_bind]
  rcases (c.catalogPage cursor).run s with ⟨e | page, s'⟩
  · rfl
  · dsimp only
    rcases nextCursor cursor page.next "Catalog" with e | - | next
    · rfl
    · rfl
    · change ((do return page.repositories ++ (← c.catalogPages bound (some next)) :
        Exchange (List String)).run s') = _
      rw [run_bind]
      dsimp only
      rcases (c.catalogPages bound (some next)).run s' with ⟨e | more, s''⟩ <;> rfl

theorem spends_catalogPage (cursor : Option String) :
    Spends (fun _ => True) (c.catalogPage cursor) := by
  unfold catalogPage
  refine (neverAdds_lift _).bind_spends fun url =>
    (neverAdds_report _ _).bind_spends fun _ => spends_perform.bind fun response => ?_
  split
  · exact neverAdds_pure _
  · exact neverAdds_throw _

/-- A bound above the number of replies is as good as any other. -/
theorem run_catalogPages_eq {m n : Nat} (cursor : Option String) (s : Session) (small : s.left < m)
    (large : s.left < n) : (c.catalogPages m cursor).run s = (c.catalogPages n cursor).run s := by
  induction m generalizing n cursor s with
  | zero => exact absurd small (Nat.not_lt_zero _)
  | succ m inductionHypothesis =>
    obtain ⟨n, rfl⟩ := Nat.exists_eq_succ_of_ne_zero (Nat.ne_zero_of_lt large)
    rw [run_catalogPages_succ, run_catalogPages_succ]
    rcases ran : (c.catalogPage cursor).run s with ⟨e | page, s'⟩
    · rfl
    · have spent := c.spends_catalogPage cursor s page s' ran trivial
      dsimp only
      rcases nextCursor cursor page.next "Catalog" with e | - | next
      · rfl
      · rfl
      · have rest := inductionHypothesis (n := n) (some next) s' (by omega) (by omega)
        dsimp only
        rw [rest]

theorem ignoresReports_catalogPages (bound : Nat) (cursor : Option String) :
    IgnoresReports (c.catalogPages bound cursor) := by
  induction bound generalizing cursor with
  | zero => exact .throw _
  | succ bound inductionHypothesis =>
    rw [catalogPages]
    refine (c.ignoresReports_call (.catalogPage cursor)).bind fun page => (IgnoresReports.lift _).bind ?_
    rintro (- | next)
    · exact .pure page.repositories
    · exact (inductionHypothesis (some next)).bind fun more => .pure (page.repositories ++ more)

/-- Reading the catalog is a number of calls for its pages. -/
theorem exists_cursors (bound : Nat) (cursor : Option String) (s : Session) :
    ∃ cursors : List (Option String),
      c.after s (cursors.map .catalogPage) = ((c.catalogPages bound cursor).run s).2 := by
  induction bound generalizing cursor s with
  | zero => exact ⟨[], rfl⟩
  | succ bound inductionHypothesis =>
    rw [run_catalogPages_succ]
    have one : c.after s ([cursor].map .catalogPage) = ((c.catalogPage cursor).run s).2 := rfl
    rcases ran : (c.catalogPage cursor).run s with ⟨e | page, s'⟩
    · exact ⟨[cursor], by rw [one, ran]⟩
    · dsimp only
      rcases nextCursor cursor page.next "Catalog" with e | - | next
      · exact ⟨[cursor], by rw [one, ran]⟩
      · exact ⟨[cursor], by rw [one, ran]⟩
      · obtain ⟨cursors, reached⟩ := inductionHypothesis (some next) s'
        refine ⟨cursor :: cursors, ?_⟩
        rw [List.map_cons, after_cons, call, ran, reached]
        dsimp only
        rcases (c.catalogPages bound (some next)).run s' with ⟨e | more, s''⟩ <;> rfl

end RegistryClient

end RegistryCache
