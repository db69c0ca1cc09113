import RegistryCache.CommandLine.Arguments
import RegistryCache.Config.Environment
import RegistryCache.Http.Client
import RegistryCache.Program.Report

/-! # Running commands

A command works on a fresh cache and a client for the configured registry.  All but one read the
catalog first and have nothing to do if that fails; what becomes of single repositories is reported,
and the command goes on.  Watching runs the refresh loops until it is interrupted.
-/

namespace RegistryCache

/-- How far a run has come: the cache with all that surrounds it, and what was put out. -/
structure RunState where
  world : World Session
  outputs : List Output

/-- Something done in a run, which may fail. -/
abbrev Run := ExceptT RegistryError (StateM RunState)

namespace Run

/-! ## Output -/

/-- Puts lines of a result out. -/
def print (lines : List String) : Run Unit :=
  modify fun s => { s with outputs := s.outputs ++ lines.map .result }

/-- Reports something. -/
def report (level : Level) (text : String) : Run Unit :=
  modify fun s => { s with outputs := s.outputs ++ [.notice ⟨level, none, text⟩] }

/-- Puts out what was reported while the cache was at work. -/
def collect (w : World Session) : Run Unit :=
  modify fun s =>
    { world := { w with notices := #[] }
      outputs := s.outputs ++ w.notices.toList.map .notice }

/-! ## Work on the cache -/

/-- A number of events that no operation exceeds: every page is a reply, and every repository stands
    in a body. -/
def events (t : Transport) : Nat :=
  t.replies.foldl (fun sum reply => match reply with
    | .response r => sum + r.body.length + 2
    | _ => sum + 2) 2

def perform (client : RegistryClient) (operation : Operation) : Run (Option Outcome) := do
  let w := (← get).world
  let (w, outcome) := w.perform client.registry (events w.registry.transport) operation none
  collect w
  return outcome

/-- Reads the catalog; without one there is nothing to do. -/
def readCatalog (client : RegistryClient) : Run Unit := do
  match ← perform client .refreshCatalog with
  | some (.catalog (.error e)) => throw e
  | _ => return

/-- Fetches the tags of all repositories.  They are the repositories of the catalog, so their number
    bounds the pass. -/
def readTags (client : RegistryClient) : Run Unit := do
  let w := (← get).world
  let (w, _) := w.perform client.registry (w.cache.catalog.size + 1) (.refreshTags false) none
  collect w

/-- The tags of a repository: fetched if nothing is known of it, else from where the policy takes
    them. -/
def loadTags (client : RegistryClient) (repository : String) : Run TagListing := do
  if (← get).world.cache.tags.contains repository then
    match ← perform client (.listTags repository) with
    | some (.listing l) => return l
    | _ => return .unready
  else
    match ← perform client (.fetchTags repository) with
    | some (.fetched tags) => return .ofFetch tags
    | _ => return .unready

/-! ## Commands -/

def showStatistics (json : Bool) (top : Nat) : Run Unit := do
  let w := (← get).world
  let statistics := w.cache.statistics top
  if json then
    match statistics.toJson? with
    | some v => print (Report.json v)
    | none => throw ⟨.parse, "SystemTime must be later than UNIX_EPOCH"⟩
  else print (Report.statistics (.ofInstant w.now) statistics)

def stats (client : RegistryClient) (json : Bool) (top : UInt64) : Run Unit := do
  readCatalog client
  readTags client
  showStatistics json top.toNat

def browse (client : RegistryClient) (json : Bool) (path : String) : Run Unit := do
  readCatalog client
  let children := (← get).world.cache.catalog.children path
  readTags client
  let entries := Report.entries path children.names (← get).world.cache.tags
  if json then print (Report.json (.array (entries.map Report.Entry.toJson)))
  else print (Report.browse path entries children.isRepository)

def tags (client : RegistryClient) (json : Bool) (repository : String) : Run Unit := do
  readCatalog client
  let listing ← loadTags client repository
  if json then print (Report.json (Report.listingJson listing))
  else do
    if !listing.ready then report .warning s!"Tags for {repository} are not cached yet."
    let policy := (← get).world.cache.policy
    print (Report.tags repository listing (policy.note listing.tags.length))

def delete (client : RegistryClient) (repository tag : String) : Run Unit := do
  match ← perform client (.deleteTag repository tag) with
  | some (.deleted true) => return
  | _ => throw ⟨.registry, s!"Tag {repository}:{tag} was not deleted"⟩

/-- Runs the refresh loops until all that can happen at once has happened, and is then
    interrupted. -/
def watch (client : RegistryClient) : Run Unit := do
  report .section "Registry Catalog Cache"
  let w := (← get).world.start
  let (w, waited) := w.wait client.registry (events w.registry.transport) 1
  collect w
  match waited with
  | .finished (.error e) => throw e
  | .finished (.ok ()) =>
    report .info "Background refresh finished, serving cached data until Ctrl-C."
  | _ => pure ()
  report .info "Shutting down background jobs..."
  let (w, waited) := (← get).world.shutdown client.registry
  collect w
  match waited with
  | .finished (.error e) => throw e
  | _ => return

/-- Carries a command out. -/
def command (client : RegistryClient) (json : Bool) : Command → Run Unit
  | .watch _ => watch client
  | .stats top => stats client json top
  | .browse path => browse client json path
  | .tags repository => tags client json repository
  | .delete repository tag => delete client repository tag

/-- The line that says how the registry is reached and how often it is asked. -/
def introduction (client : RegistryClient) (p : RefreshPolicy) : String :=
  s!"Registry: {client.address} (catalog every {p.catalogInterval} min, "
    ++ s!"tags every {p.tagsInterval} min, online max {p.onlineMax})"

end Run

/-! ## Whole runs -/

/-- How a run ended, and all that can be seen of it. -/
structure RunReport where
  result : Except RegistryError Unit
  lines : List Line
  transport : Transport

namespace RunReport

/-- A run that failed before anything was asked of the registry. -/
def early (e : RegistryError) (t : Transport) : RunReport := ⟨.error e, [], t⟩

def text (r : RunReport) (stream : Stream) : String := Line.transcript stream r.lines

/-- The line that tells why the program gives up. -/
def farewell (e : RegistryError) : Line :=
  let reason := match e.kind with
    | .catalogUnavailable => s!"Cannot read the registry catalog, nothing to serve: {e.message}"
    | _ => e.message
  ⟨.err, s!"❌ ERROR: {reason}"⟩

/-- The exit status of the program. -/
def exitCode (r : RunReport) : Nat :=
  match r.result with
  | .ok () => 0
  | .error _ => 1

/-- All that the program prints: what the run printed, and why it failed if it did. -/
def printed (r : RunReport) : List Line :=
  match r.result with
  | .ok () => r.lines
  | .error e => r.lines ++ [farewell e]

end RunReport

/-- The configuration that a command line asks for in an environment. -/
def Arguments.config (a : Arguments) (environment : AppConfig.Environment) : AppConfig :=
  a.overrides.apply (AppConfig.ofEnvironment environment)

/-- Runs the program on a command line that is understood. -/
def Arguments.run (a : Arguments) (environment : AppConfig.Environment) (files : Files)
    (transport : Transport) : RunReport :=
  let config := a.config environment
  match config.validate with
  | .error e => .early e transport
  | .ok () =>
    match RegistryClient.ofConfig config.registry files with
    | .error e => .early e transport
    | .ok client =>
      let begin : Run Unit := do
        Run.report .verbose (Run.introduction client config.refresh)
        Run.command client a.json a.command
      let (result, state) := begin.run ⟨.fresh config.refresh (.start transport), []⟩
      ⟨result, state.outputs.flatMap (Output.lines config.verbosity),
        state.world.registry.transport⟩

end RegistryCache
