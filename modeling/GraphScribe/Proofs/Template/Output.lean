import GraphScribe.Template

/-!
# What a template writes

A sink without a limit takes every piece, so what a template leaves in it is the output of the
template, and that of its directives one after the other.

* `Directive.writeTo_unlimited`, `Template.writeTo_unlimited`: the bytes that are written.
* `Template.render_eq`: a template gives what its directives do, in order.
-/

namespace GraphScribe

namespace Receiver

variable {σ : Type} [Receiver σ]

@[simp]
theorem writeAll_nil (s : σ) : writeAll s [] = .ok s := rfl

theorem writeAll_cons (s : σ) (chunk : Bytes) (rest : List Bytes) :
    writeAll s (chunk :: rest) = write s chunk >>= (writeAll · rest) :=
  List.foldlM_cons

end Receiver

/-- A sink without a limit takes everything. -/
theorem Sink.writeAll_of_unlimited {s : Sink} (unlimited : s.limit = none) (chunks : List Bytes) :
    Receiver.writeAll s chunks = .ok { s with held := s.held ++ chunks.flatten } := by
  induction chunks generalizing s with
  | nil => simp
  | cons chunk rest ih =>
    have wrote : Receiver.write s chunk = .ok { s with held := s.held ++ chunk } := by
      apply if_pos
      rw [Sink.hasRoom, unlimited]
    rw [Receiver.writeAll_cons, wrote]
    have joined : s.held ++ chunk ++ rest.flatten = s.held ++ (chunk :: rest).flatten :=
      Array.ext' (by simp)
    rw [← joined]
    exact ih (s := { s with held := s.held ++ chunk }) unlimited

theorem Utf8.flatten_encode (pieces : List (List Char)) :
    (pieces.map encode).flatten = encode pieces.flatten := by
  unfold encode
  rw [List.flatMap_def, List.map_flatten, List.flatten_flatten, List.map_map]
  rfl

theorem Sink.writeAll_empty (pieces : List (List Char)) :
    Receiver.writeAll ({} : Sink) (pieces.map Utf8.encode) =
      .ok { held := (Utf8.encode pieces.flatten).toArray } := by
  rw [writeAll_of_unlimited rfl, Utf8.flatten_encode]
  simp

namespace Directive

/-- Writes the output of a directive for a graph, piece by piece. -/
def writeTo {σ : Type} [Receiver σ] (d : Directive) (sink : σ) (g : Graph) :
    Except (SystemError × σ) σ :=
  Receiver.writeAll sink ((d.pieces g).map Utf8.encode)

/-- The output of a directive for a graph. -/
def render (d : Directive) (g : Graph) : Bytes :=
  Utf8.encode (d.pieces g).flatten

/-- What a directive writes to a sink without a limit is its output. -/
theorem writeTo_unlimited (d : Directive) (g : Graph) :
    d.writeTo ({} : Sink) g = .ok { held := (d.render g).toArray } :=
  Sink.writeAll_empty _

end Directive

namespace Template

theorem flatten_pieces (t : Template) (g : Graph) :
    ((t.pieces g).map Utf8.encode).flatten = t.render g :=
  Utf8.flatten_encode _

/-- What a template writes to a sink without a limit is its output. -/
theorem writeTo_unlimited (t : Template) (g : Graph) :
    t.writeTo ({} : Sink) g = .ok { held := (t.render g).toArray } :=
  Sink.writeAll_empty _

theorem render_eq (t : Template) (g : Graph) :
    t.render g = t.directives.flatMap (·.render g) := by
  unfold render pieces Directive.render
  rw [← Utf8.flatten_encode, List.map_flatMap, List.flatMap_def, List.flatten_flatten, List.map_map,
    List.flatMap_def]
  exact congrArg List.flatten (List.map_congr_left fun d _ => Utf8.flatten_encode _)

end Template
end GraphScribe
