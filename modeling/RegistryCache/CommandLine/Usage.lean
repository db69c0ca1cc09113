import RegistryCache.CommandLine.Reader

/-! # Usage

What is said when a command line is not carried out.  Help and the version are what was asked for, so
they go to the output and count as success; everything else is an error of its own exit status.
-/

namespace RegistryCache.CommandLine

def programName : String := "registry-catalog-cache"

def programVersion : String := "0.1.0"

def usage : String := Text.join "\n"
  ["Browse a container registry through a background-synchronized metadata cache",
   "",
   s!"Usage: {programName} [OPTIONS] <COMMAND>",
   "",
   "Commands:",
   "  watch   Keep the cache synchronized and report statistics until Ctrl-C",
   "  stats   Fetch the catalog and all tags once, then print statistics",
   "  browse  List the entries below a catalog path with their tag counts",
   "  tags    List the tags of one repository",
   "  delete  Delete a tag (and every tag sharing its digest) from the registry",
   "  help    Print this message or the help of the given subcommand(s)",
   "",
   "Options:",
   "  -r, --registry <ADDRESS>                   Registry address including scheme",
   "  -u, --username <USERNAME>                  Username for registry authentication",
   "  -p, --password <PASSWORD>                  Password for registry authentication",
   "      --password-file <PASSWORD_FILE>        Read the registry password from this file",
   "  -k, --skip-tls                             Skip TLS certificate verification",
   "  -t, --timeout <TIMEOUT>                    Timeout for each registry request in seconds",
   "      --page-size <PAGE_SIZE>                Repositories requested per catalog page",
   "      --catalog-interval <CATALOG_INTERVAL>  Catalog refresh interval in minutes",
   "      --tags-interval <TAGS_INTERVAL>        Background tag refresh interval in minutes",
   "      --online-max <ONLINE_MAX>              Largest tag count that is refreshed on every listing",
   "  -v, --verbose                              Enable verbose output",
   "  -q, --quiet                                Only print errors and results",
   "      --json                                 Print results as JSON",
   "  -h, --help                                 Print help",
   "  -V, --version                              Print version",
   ""]

namespace Refusal

/-- Whether information was asked for. -/
def isInformation : Refusal → Bool
  | .help | .version => true
  | _ => false

def exitCode (r : Refusal) : Nat := if r.isInformation then 0 else 2

/-- What is said. -/
def text : Refusal → String
  | .version => s!"{programName} {programVersion}\n"
  | .help | .empty => usage
  | .unknownArgument => "error: unexpected argument found\n"
  | .unknownCommand => "error: unrecognized subcommand\n"
  | .missingWord => "error: a required argument was not provided\n"
  | .missingCommand => "error: a subcommand is required but one was not provided\n"
  | .repeated => "error: an argument cannot be used multiple times\n"
  | .badValue => "error: invalid value for an argument\n"
  | .missingValue => "error: a value is required for an argument but none was supplied\n"
  | .unwantedValue => "error: unexpected value for an argument\n"

end Refusal

end RegistryCache.CommandLine
