import SketchLang.Scan.Basic

namespace SketchLang.Command

inductive Error where
  | unknownArgument (argument : String)
  | unreadableInput (error : InputError)
  | lexicalError (error : Scan.Error)
deriving DecidableEq

def Error.message : Error → String
  | unknownArgument argument => "unknown argument " ++ Text.quoteString argument
  | unreadableInput error => "could not read input: " ++ error.description
  | lexicalError error => error.message

structure Outcome where
  exitCode : UInt32
  stdout : String
  stderr : String
deriving DecidableEq

def trackLines : String := "--track-lines"

def lineMode (args : List String) : Except Error LineMode :=
  match args.find? (· != trackLines) with
  | some argument => .error (.unknownArgument argument)
  | none => .ok (if args.isEmpty then .flat else .track)

def decode (input : ByteArray) : Except Error String :=
  match String.fromUTF8? input with
  | some source => .ok source
  | none => .error (.unreadableInput ⟨.invalidData, "stream did not contain valid UTF-8"⟩)

def scan (mode : LineMode) (source : String) : Except Error (List Token) :=
  match tokenize mode source with
  | .ok tokens => .ok tokens
  | .error error => .error (.lexicalError error)

def line (token : Token) : String :=
  toString token.position.line ++ ":" ++ toString token.position.column ++ " " ++
    token.kind.name ++ " " ++ Text.quoteString token.lexeme ++ "\n"

def tokens (args : List String) (input : ByteArray) : Except Error (List Token) := do
  let mode ← lineMode args
  let source ← decode input
  scan mode source

def run (args : List String) (input : ByteArray) : Outcome :=
  match tokens args input with
  | .ok tokens => ⟨0, String.join (tokens.map line), ""⟩
  | .error error => ⟨1, "", "error: " ++ error.message ++ "\n"⟩

end SketchLang.Command
