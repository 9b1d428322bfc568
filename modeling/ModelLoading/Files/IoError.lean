/-!
# Failed file accesses

An `IoError` is the reason why a file, a directory or a resource could not be used.
-/

namespace ModelLoading.Files

/-- Why an access failed. -/
inductive IoError where
  /-- Nothing is there. -/
  | notFound
  /-- A directory stands where a file is needed. -/
  | isDirectory
  /-- A file stands where a directory is needed. -/
  | notDirectory
  /-- A name or a path is too long. -/
  | nameTooLong
  /-- The content is no text in UTF-8. -/
  | invalidText
  /-- A reason in words. -/
  | other (message : String)
  deriving DecidableEq, Repr

/-- The wording of a reason. -/
def IoError.message : IoError → String
  | notFound => "No such file or directory (os error 2)"
  | isDirectory => "Is a directory (os error 21)"
  | notDirectory => "Not a directory (os error 20)"
  | nameTooLong => "File name too long (os error 36)"
  | invalidText => "stream did not contain valid UTF-8"
  | other message => message

end ModelLoading.Files
