import GraphScribe.Statistics

/-!
# Diagnostics

The answers to requests about a running conversion: one path tells that the program is alive, one
tells how far it has come. Requests change nothing.
-/

namespace GraphScribe.Diagnostics

/-- The version of the program. -/
def version : String := "0.1.0"

/-- The value of a field of a report. -/
inductive Field where
  | text (value : String)
  | number (value : Nat)
  /-- The time at which the run began. -/
  | startTime
deriving DecidableEq, Repr

/-- Named fields in order. -/
abbrev Report := List (String × Field)

/-- The report that the program is alive. -/
def health : Report :=
  [("status", .text "ok"), ("version", .text version)]

/-- The report of the counters. -/
def snapshot (s : Statistics) : Report :=
  [("total", .number s.total), ("converted", .number s.converted), ("failed", .number s.failed),
    ("pending", .number s.pending), ("bytes_written", .number s.bytesWritten.toNat),
    ("started_at", .startTime)]

/-- The answer to a request. -/
structure Response where
  status : Nat
  body : Option Report
deriving DecidableEq, Repr

/-- A character that ends a path: a query or a fragment follows. -/
def endsPath (c : Char) : Bool := c == '?' || c == '#'

/-- A character that may stand in the scheme of an address. -/
def isOfScheme (c : Char) : Bool := c.isAlphanum || c == '+' || c == '-' || c == '.'

/-- What follows the scheme of an address and the two slashes after it. -/
def afterScheme? (target : List Char) : Option (List Char) :=
  match target.dropWhile isOfScheme with
  | ':' :: '/' :: '/' :: rest => some rest
  | _ => none

/-- The path in the target of a request. A target is a path or an address with a scheme and a host
before the path, both perhaps with a query or a fragment behind; any other one has no path. -/
def pathOf (target : List Char) : List Char :=
  match target with
  | '/' :: _ => target.takeWhile (!endsPath ·)
  | _ =>
    match afterScheme? target with
    | some rest => (rest.dropWhile fun c => c != '/' && !endsPath c).takeWhile (!endsPath ·)
    | none => []

/-- The report at a path. -/
def reportAt? (s : Statistics) (path : List Char) : Option Report :=
  if path = "/api/health".toList then some health
  else if path = "/api/stats".toList then some (snapshot s)
  else none

/-- Answers a request. Only reading is allowed, with the report or without. -/
def respond (s : Statistics) (method target : String) : Response :=
  match reportAt? s (pathOf target.toList) with
  | none => ⟨404, none⟩
  | some report =>
    if method = "GET" then ⟨200, some report⟩
    else if method = "HEAD" then ⟨200, none⟩
    else ⟨405, none⟩

end GraphScribe.Diagnostics
