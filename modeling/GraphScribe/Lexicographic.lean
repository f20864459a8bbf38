/-!
# Order of lists

Lists in the order of the first place where they differ.
-/

namespace GraphScribe

/-- The order of lists by the first place where they differ; a list comes before its extensions, and
is not after itself. -/
def listBefore {α : Type} [DecidableEq α] (before : α → α → Bool) : List α → List α → Bool
  | [], _ => true
  | _ :: _, [] => false
  | a :: as, b :: bs => if a = b then listBefore before as bs else before a b

end GraphScribe
