import ZoneStore.Files.Reader
import ZoneStore.Toml.Decode

/-!
# Causes of errors

An error is explained by a chain of causes, nearest first. Most are texts
of ours; the last may be an error of the file system or of a document.
-/

namespace ZoneStore

inductive Cause where
  | text (message : String)
  | unreadable (error : ReadError)
  | syntaxError (error : Toml.Error)
deriving DecidableEq, Repr

def Cause.message : Cause → String
  | text message => message
  | unreadable error => error.message
  | syntaxError error => error.message

end ZoneStore
