import JavaDeps.Pattern.Error
import JavaDeps.Text.Utf8

/-!
# Faults

What can go wrong while a project is analysed, edited or drawn. A fault names its cause; `message`
is its wording where it is shown.
-/

namespace JavaDeps

/-- Why an operation ended early. -/
inductive Fault where
  /-- A value of this kind has no such member. -/
  | noMember (kind member : String)
  /-- A value of this kind has no elements to go through. -/
  | notIterable (kind : String)
  /-- A value of this kind cannot be searched. -/
  | notSearchable (kind : String)
  /-- A value of this kind cannot be a key. -/
  | unhashable (kind : String)
  /-- A value of this kind has no length. -/
  | noLength (kind : String)
  /-- Something without elements was to be joined. -/
  | notJoinable
  /-- The element at this place is no text. -/
  | notText (place : Nat) (kind : String)
  /-- Values of these kinds have no common order. -/
  | unordered (left right : String)
  /-- A text denotes no integer. -/
  | notInteger (flaw : Text.IntegerFlaw)
  /-- The key, given in its written form, is absent. -/
  | missingKey (key : String)
  /-- An operation was called with too few arguments. -/
  | missingArguments (operation : String) (names : List String)
  /-- The text is no written pattern. -/
  | badPattern (error : PatternError)
  /-- A value of this kind is no text that could be searched. -/
  | noText (kind : String)
  /-- No connection to the function table. -/
  | noConnection (reason : String)
  /-- The function table refused a statement. -/
  | badStatement (reason : String)
  /-- There is no such file. -/
  | noFile (path : String)
  /-- The file is a directory. -/
  | isDirectory (path : String)
  /-- A part of the path is no directory. -/
  | notDirectory (path : String)
  /-- A name of the path is too long. -/
  | longName (path : String)
  /-- The path holds a zero byte. -/
  | zeroByte
  /-- The drawing tool may not be started. -/
  | toolDenied
  /-- The bytes of a file are no text. -/
  | undecodable (error : Text.DecodeError)
  /-- The path does not lie below the directory. -/
  | outside (path directory : String)
  /-- The number belongs to no port. -/
  | noPort
  /-- There is no request handler. -/
  | noHandler
  deriving DecidableEq, Repr

namespace Fault

def listing : List String → String
  | [] => ""
  | [a] => a
  | [a, b] => a ++ " and " ++ b
  | names => Text.join ", " names.dropLast ++ ", and " ++ (names.getLast?).getD ""

def message : Fault → String
  | noMember kind member => "'" ++ kind ++ "' object has no attribute '" ++ member ++ "'"
  | notIterable kind => "'" ++ kind ++ "' object is not iterable"
  | notSearchable kind => "argument of type '" ++ kind ++ "' is not iterable"
  | unhashable kind => "unhashable type: '" ++ kind ++ "'"
  | noLength kind => "object of type '" ++ kind ++ "' has no len()"
  | notJoinable => "can only join an iterable"
  | notText place kind =>
    "sequence item " ++ Text.ofNat place ++ ": expected str instance, " ++ kind ++ " found"
  | unordered left right =>
    "'<' not supported between instances of '" ++ left ++ "' and '" ++ right ++ "'"
  | notInteger flaw => flaw.message
  | missingKey key => key
  | missingArguments operation names =>
    operation ++ "() missing " ++ Text.ofNat names.length ++ " required positional argument"
      ++ (if names.length == 1 then "" else "s") ++ ": "
      ++ listing (names.map (fun n => "'" ++ n ++ "'"))
  | badPattern error => error.message
  | noText kind => "expected string or bytes-like object, got '" ++ kind ++ "'"
  | noConnection reason => reason
  | badStatement reason => reason
  | noFile path => "[Errno 2] No such file or directory: " ++ Text.quoted path
  | isDirectory path => "[Errno 21] Is a directory: " ++ Text.quoted path
  | notDirectory path => "[Errno 20] Not a directory: " ++ Text.quoted path
  | longName path => "[Errno 36] File name too long: " ++ Text.quoted path
  | zeroByte => "embedded null byte"
  | toolDenied => "[Errno 13] Permission denied: 'dot'"
  | undecodable error => error.message
  | outside path directory =>
    Text.quoted path ++ " is not in the subpath of " ++ Text.quoted directory
      ++ " OR one path is relative and the other is absolute."
  | noPort => "bind(): port must be 0-65535."
  | noHandler => "'NoneType' object is not callable"

end Fault

end JavaDeps
