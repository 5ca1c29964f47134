import ZoneStore.Query.Arguments

/-!
# What a user reads instead of an answer

The texts that explain how a query is asked, and the report on words that
give no query.
-/

namespace ZoneStore.Query

def usage : String :=
  "Usage: ldapdb-query [OPTIONS] --config <FILE> <NAME>"

def helpText : String :=
  "\n".intercalate
    ["Look up records through the dynamic-ldap database", "", usage, "",
      "Arguments:",
      "  <NAME>  The fully qualified domain name to look up", "",
      "Options:",
      "      --config <FILE>  Set the configuration file to use",
      "  -t, --type <TYPE>    Set the RR type to look up [default: A]",
      "      --no-follow      Print CNAME records instead of following them",
      "  -h, --help           Print help",
      "  -V, --version        Print version", ""]

def versionText : String :=
  "ldapdb 0.1.0\n"

def informationText : ArgumentError → String
  | .helpWanted => helpText
  | .versionWanted => versionText
  | _ => ""

def refusalText (error : ArgumentError) : String :=
  if error.isInformation then ""
  else
    "error: " ++ error.message ++ "\n\n" ++ usage ++ "\n\nFor more information, try '--help'.\n"

end ZoneStore.Query
