import GraphScribe.Proofs.Decode.InStep

/-!
# Collectors side by side

Two collectors follow signals that correspond. If what they keep of members and of children
corresponds, and members that correspond stand for the same, then so do the collectors: signal for
signal they make the same progress, or stop with errors of one kind and place.

* `Collector.Simulates`: what is to be shown of the parts of a collector.
* `Collector.Simulates.step`: one signal.
-/

namespace GraphScribe

open Markup

variable {τ τ' δ δ' ε ε' φ φ' : Type} {T : τ → τ' → Prop} {D : δ → δ' → Prop}
  {M : ε → ε' → Prop} {F : φ → φ' → Prop}

/-- Signals of one kind, whose tags and pieces correspond. -/
inductive Markup.Signal.Rel (T : τ → τ' → Prop) (D : δ → δ' → Prop) :
    Signal τ δ → Signal τ' δ' → Prop where
  | enter {tag : τ} {tag' : τ'} : T tag tag' → Rel T D (.enter tag) (.enter tag')
  | leave : Rel T D .leave .leave
  | data {piece : δ} {piece' : δ'} : D piece piece' → Rel T D (.data piece) (.data piece')

/-- The same was found, and what is in hand corresponds. -/
structure Progress.Rel (M : ε → ε' → Prop) (F : φ → φ' → Prop) (s : Progress ε φ)
    (s' : Progress ε' φ') : Prop where
  depth : s'.depth = s.depth
  sawRoot : s'.sawRoot = s.sawRoot
  elements : s'.elements = s.elements
  pending : Option.Rel M s.pending s'.pending
  field : Option.Rel F s.field s'.field

/-- The parts of two collectors keep to a correspondence of tags, pieces, members and children. -/
structure Collector.Simulates (C : Collector τ δ ε φ) (C' : Collector τ' δ' ε' φ')
    (T : τ → τ' → Prop) (D : δ → δ' → Prop) (M : ε → ε' → Prop) (F : φ → φ' → Prop) : Prop where
  begins : ∀ {tag tag'}, T tag tag' →
    Option.Rel (Alike DecodeError.Same M) (C.begin? tag) (C'.begin? tag')
  child : ∀ {member member' tag tag'}, M member member' → T tag tag' →
    Option.Rel F (C.child? member tag) (C'.child? member' tag')
  add : ∀ {child child' piece piece'}, F child child' → D piece piece' →
    F (C.add child piece) (C'.add child' piece')
  close : ∀ {member member' child child'}, M member member' → F child child' →
    M (C.close member child) (C'.close member' child')
  meaning : ∀ {member member'}, M member member' →
    SameOutcome (C.meaning member) (C'.meaning member')

namespace Collector.Simulates

variable {C : Collector τ δ ε φ} {C' : Collector τ' δ' ε' φ'} {s : Progress ε φ}
  {s' : Progress ε' φ'}

theorem enter (simulates : C.Simulates C' T D M F) (same : Progress.Rel M F s s') {tag : τ}
    {tag' : τ'} (tags : T tag tag') :
    Alike DecodeError.Same (Progress.Rel M F) (C.enter s tag) (C'.enter s' tag') := by
  have begun := simulates.begins tags
  obtain ⟨_, _, _, member?, child?⟩ := s
  obtain ⟨depth, sawRoot, elements, member?', child?'⟩ := s'
  obtain ⟨rfl, rfl, rfl, members, children⟩ := same
  rcases depth with _ | _ | _ | depth
  · exact ⟨rfl, rfl, rfl, members, children⟩
  · unfold Collector.enter
    generalize C.begin? tag = begun?, C'.begin? tag' = begun?' at begun
    rcases begun with same | _
    · exact same.map fun _ _ member => ⟨rfl, rfl, rfl, .some member, children⟩
    · exact ⟨rfl, rfl, rfl, members, children⟩
  · rcases members with same | _
    · exact ⟨rfl, rfl, rfl, .some same, simulates.child same tags⟩
    · exact ⟨rfl, rfl, rfl, .none, children⟩
  · exact ⟨rfl, rfl, rfl, members, children⟩

theorem leave (simulates : C.Simulates C' T D M F) (same : Progress.Rel M F s s') :
    Alike DecodeError.Same (Progress.Rel M F) (C.leave s) (C'.leave s') := by
  obtain ⟨_, _, _, member?, child?⟩ := s
  obtain ⟨depth, sawRoot, elements, member?', child?'⟩ := s'
  obtain ⟨rfl, rfl, rfl, members, children⟩ := same
  rcases depth with _ | _ | _ | _ | depth
  · exact ⟨rfl, rfl, rfl, members, children⟩
  · exact ⟨rfl, rfl, rfl, members, children⟩
  · rcases members with same | _
    · exact (simulates.meaning same).map fun _ _ equal =>
        ⟨rfl, rfl, congrArg (· :: _) equal.symm, .none, children⟩
    · exact ⟨rfl, rfl, rfl, .none, children⟩
  · rcases members with same | _
    · rcases children with child | _
      · exact ⟨rfl, rfl, rfl, .some (simulates.close same child), .none⟩
      · exact ⟨rfl, rfl, rfl, .some same, .none⟩
    · exact ⟨rfl, rfl, rfl, .none, children⟩
  · exact ⟨rfl, rfl, rfl, members, children⟩

theorem data (simulates : C.Simulates C' T D M F) (same : Progress.Rel M F s s') {piece : δ}
    {piece' : δ'} (pieces : D piece piece') :
    Progress.Rel M F (C.data s piece) (C'.data s' piece') := by
  obtain ⟨_, _, _, member?, child?⟩ := s
  obtain ⟨depth, sawRoot, elements, member?', child?'⟩ := s'
  obtain ⟨rfl, rfl, rfl, members, children⟩ := same
  rcases children with child | _
  · unfold Collector.data
    dsimp only
    split
    · exact ⟨rfl, rfl, rfl, members, .some (simulates.add child pieces)⟩
    · exact ⟨rfl, rfl, rfl, members, .some child⟩
  · exact ⟨rfl, rfl, rfl, members, .none⟩

/-- A signal leads from corresponding progress to such progress, or stops both collectors. -/
theorem step (simulates : C.Simulates C' T D M F) (same : Progress.Rel M F s s')
    {signal : Signal τ δ} {signal' : Signal τ' δ'} (signals : Signal.Rel T D signal signal') :
    Alike DecodeError.Same (Progress.Rel M F) (C.step s signal) (C'.step s' signal') := by
  cases signals with
  | enter tags => exact simulates.enter same tags
  | leave => exact simulates.leave same
  | data pieces => exact simulates.data same pieces

end Collector.Simulates

end GraphScribe
