/-!
# Failures of the surrounding system

What a file, a stream or a sink can report, each with its one line of text.
-/

namespace GraphScribe

/-- A failure that the operating system or a stream reports. -/
inductive SystemError where
  | notFound
  | alreadyExists
  | notDirectory
  | isDirectory
  | unsupported
  | invalidText
  | storageFull
  | flushFailed
  | connectionReset
deriving DecidableEq, Repr

/-- The text of a failure. -/
def SystemError.message : SystemError → String
  | .notFound => "No such file or directory (os error 2)"
  | .alreadyExists => "File exists (os error 17)"
  | .notDirectory => "Not a directory (os error 20)"
  | .isDirectory => "Is a directory (os error 21)"
  | .unsupported => "Operation not supported (os error 95)"
  | .invalidText => "stream did not contain valid UTF-8"
  | .storageFull => "disk full"
  | .flushFailed => "flush failed"
  | .connectionReset => "connection reset"

end GraphScribe
