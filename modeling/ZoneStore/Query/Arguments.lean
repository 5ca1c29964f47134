import ZoneStore.Name.Presentation
import ZoneStore.Record.Type

/-!
# Arguments of a query

The words of a command line name the configuration file, the type and the
name to look up, and say whether aliases are followed. The value of an
option is checked when the next option or value comes, so the first word
that cannot be understood can be reported before an earlier invalid value.
-/

namespace ZoneStore

structure Query where
  configuration : String
  type : RecordType
  noFollow : Bool
  name : Name
deriving DecidableEq

inductive ArgumentError where
  /-- A value is missing, or is empty where it must not be. -/
  | noValue
  | invalidType (cause : RecordTypeError)
  | invalidName (cause : NameError)
  | missingRequired
  | unknownWord
  | repeated
  /-- An option without a value was given one. -/
  | unexpectedValue
  /-- The words ask how the program is used. -/
  | helpWanted
  /-- The words ask which version of the program this is. -/
  | versionWanted
deriving DecidableEq, Repr

namespace ArgumentError

def message : ArgumentError → String
  | noValue => "a value is required for an argument but none was supplied"
  | invalidType cause => "invalid value for --type: " ++ cause.message
  | invalidName cause => "invalid value for the name: " ++ cause.message
  | missingRequired => "required arguments were not provided: --config and a name"
  | unknownWord => "unexpected argument found"
  | repeated => "an argument cannot be used multiple times"
  | unexpectedValue => "unexpected value for an argument found; no more were expected"
  | helpWanted => "help was asked for"
  | versionWanted => "the version was asked for"

def cause? : ArgumentError → Option String
  | invalidType cause => some cause.message
  | invalidName cause => some cause.message
  | _ => none

def isInformation : ArgumentError → Bool
  | helpWanted => true
  | versionWanted => true
  | _ => false

end ArgumentError

inductive Parameter where
  | configuration
  | type
  | name
deriving DecidableEq, Repr

inductive ArgumentWord where
  | plain (text : String)
  | endOfOptions
  | long (option : List Char) (value : Option String)
  | short (letter : Char) (rest : List Char)
deriving DecidableEq, Repr

namespace ArgumentWord

def ofLong (chars : List Char) : ArgumentWord :=
  match chars.dropWhile (· != '=') with
  | [] => .long chars none
  | _ :: value => .long (chars.takeWhile (· != '=')) (some (String.ofList value))

def ofText (text : String) : ArgumentWord :=
  match text.toList with
  | ['-', '-'] => .endOfOptions
  | '-' :: '-' :: chars => ofLong chars
  | '-' :: letter :: rest => .short letter rest
  | _ => .plain text

end ArgumentWord

structure QueryDraft where
  configuration : Option String := none
  type : Option RecordType := none
  noFollow : Bool := false
  name : Option Name := none
  /-- The last parameter and its value, which are not checked yet. -/
  pending : Option (Parameter × Option String) := none

namespace QueryDraft

/-- Gives a parameter its value, which must be its first. -/
def assign (draft : QueryDraft) (value : String) : Parameter → Except ArgumentError QueryDraft
  | .configuration =>
    if draft.configuration.isSome then .error .repeated
    else if value.isEmpty then .error .noValue
    else .ok { draft with configuration := some value }
  | .type =>
    if draft.type.isSome then .error .repeated
    else
      match RecordType.ofText value with
      | .ok type => .ok { draft with type := some type }
      | .error e => .error (.invalidType e)
  | .name =>
    if draft.name.isSome then .error .repeated
    else
      match Name.ofText value with
      | .ok name => .ok { draft with name := some name }
      | .error e => .error (.invalidName e)

def settle (draft : QueryDraft) : Except ArgumentError QueryDraft :=
  match draft.pending with
  | none => .ok draft
  | some (_, none) => .error .noValue
  | some (parameter, some value) => { draft with pending := none }.assign value parameter

/-- Starts an option with a value, which may be part of the option's own word. -/
def startOption (draft : QueryDraft) (parameter : Parameter) (value : Option String) :
    Except ArgumentError QueryDraft := do
  let draft ← draft.settle
  match value with
  | some value => draft.assign value parameter
  | none => return { draft with pending := some (parameter, none) }

def refuseFollowing (draft : QueryDraft) : Except ArgumentError QueryDraft := do
  let draft ← draft.settle
  if draft.noFollow then .error .repeated else return { draft with noFollow := true }

def stop (draft : QueryDraft) (wish : ArgumentError) : Except ArgumentError QueryDraft := do
  let _ ← draft.settle
  .error wish

def readLong (draft : QueryDraft) (option : List Char) (value : Option String) :
    Except ArgumentError QueryDraft :=
  if option = "config".toList then draft.startOption .configuration value
  else if option = "type".toList then draft.startOption .type value
  else if ["no-follow", "help", "version"].contains (String.ofList option) then
    if value.isSome then .error .unexpectedValue
    else if option = "no-follow".toList then draft.refuseFollowing
    else if option = "help".toList then draft.stop .helpWanted
    else draft.stop .versionWanted
  else .error .unknownWord

/-- The value in the word of a short option, behind an equals sign or not. -/
def attached : List Char → Option String
  | [] => none
  | '=' :: value => some (String.ofList value)
  | value => some (String.ofList value)

def readShort (draft : QueryDraft) (letter : Char) (rest : List Char) :
    Except ArgumentError QueryDraft :=
  if letter = 't' then draft.startOption .type (attached rest)
  else if letter = 'h' then draft.stop .helpWanted
  else if letter = 'V' then draft.stop .versionWanted
  else .error .unknownWord

def isNamed (draft : QueryDraft) : Bool :=
  draft.name.isSome || draft.pending.any fun (parameter, _) => parameter == .name

def readName (draft : QueryDraft) (text : String) : Except ArgumentError QueryDraft :=
  if draft.isNamed then .error .unknownWord
  else do
    let draft ← draft.settle
    return { draft with pending := some (.name, some text) }

/-- Takes a word as the value of the option in front of it, or else as the name to look up. -/
def readPlain (draft : QueryDraft) (text : String) : Except ArgumentError QueryDraft :=
  match draft.pending with
  | some (parameter, none) => .ok { draft with pending := some (parameter, some text) }
  | _ => draft.readName text

/-- Reads words; once the options have ended each word is the name to look up. -/
def readWords (draft : QueryDraft) (optionsEnded : Bool) :
    List String → Except ArgumentError QueryDraft
  | [] => draft.settle
  | text :: texts =>
    if optionsEnded then do readWords (← draft.readName text) true texts
    else
      match ArgumentWord.ofText text with
      | .endOfOptions => readWords draft true texts
      | .plain text => do readWords (← draft.readPlain text) false texts
      | .long option value => do readWords (← draft.readLong option value) false texts
      | .short letter rest => do readWords (← draft.readShort letter rest) false texts

/-- The query, if it is complete; the type defaults to A. -/
def finish (draft : QueryDraft) : Except ArgumentError Query :=
  match draft.configuration, draft.name with
  | some configuration, some name =>
    .ok ⟨configuration, draft.type.getD .a, draft.noFollow, name⟩
  | _, _ => .error .missingRequired

end QueryDraft

namespace Query

def ofArguments (words : List String) : Except ArgumentError Query := do
  (← QueryDraft.readWords {} false words).finish

end Query

end ZoneStore
