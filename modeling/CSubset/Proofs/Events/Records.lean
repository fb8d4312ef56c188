-- SUMMARY: What the records of events say, and that events can be read back from them.
import CSubset.Journal
import CSubset.Proofs.Reports.Wording

/-!
# Records of events

`Record.Tells` lists the texts that tell of events: with the numbers of a scope and of the scope
around it, with the name of a function, or with the message of a diagnostic. Every event is recorded
by such a text, and a text tells of one event only, up to the columns that messages do not give. So
the events of a check can be read back from its log.
-/

namespace CSubset

open Text

/-- The record tells of the event. -/
inductive Record.Tells : Record → Event → Prop where
  | diagnostic (d : Diagnostic) : Tells ⟨.debug, .walk, "diagnostic: " ++ d.message⟩ (.diagnostic d)
  | enterScope (n parent : Nat) :
    Tells ⟨.trace, .walk,
      "enter scope ScopeId(" ++ n.repr ++ ") (parent ScopeId(" ++ parent.repr ++ "))"⟩
      (.enterScope n parent)
  | leaveScope (n : Nat) :
    Tells ⟨.trace, .walk, "leave scope ScopeId(" ++ n.repr ++ ")"⟩ (.leaveScope n)
  | leaveFunction (name : String) :
    Tells ⟨.trace, .walk, "leave function '" ++ name ++ "'"⟩ (.leaveFunction name)

theorem scopeLabel_eq (n : Nat) : scopeLabel n = "ScopeId(" ++ n.repr ++ ")" := rfl

/-- The start of a line, by which lines about scopes and functions can be told apart. -/
def Record.start (x : Record) : List Char := x.message.toList.take 7

namespace Event

theorem record_enterScope (n parent : Nat) : (enterScope n parent).record =
    ⟨.trace, .walk,
      "enter scope ScopeId(" ++ n.repr ++ ") (parent ScopeId(" ++ parent.repr ++ "))"⟩ := by
  have htext : "enter scope " ++ scopeLabel n ++ " (parent " ++ scopeLabel parent ++ ")" =
      "enter scope ScopeId(" ++ n.repr ++ ") (parent ScopeId(" ++ parent.repr ++ "))" := by
    rw [← String.toList_inj]
    simp [scopeLabel_eq]
  exact congrArg (Record.mk .trace .walk) htext

theorem record_leaveScope (n : Nat) : (leaveScope n).record =
    ⟨.trace, .walk, "leave scope ScopeId(" ++ n.repr ++ ")"⟩ := by
  have htext : "leave scope " ++ scopeLabel n = "leave scope ScopeId(" ++ n.repr ++ ")" := by
    rw [← String.toList_inj]
    simp [scopeLabel_eq]
  exact congrArg (Record.mk .trace .walk) htext

theorem record_leaveFunction (name : String) : (leaveFunction name).record =
    ⟨.trace, .walk, "leave function '" ++ name ++ "'"⟩ := rfl

/-- The record that tells of an event is the one that is logged. -/
theorem tells_iff {x : Record} {e : Event} : x.Tells e ↔ x = e.record := by
  refine ⟨fun h => ?_, fun h => h ▸ ?_⟩
  · cases h with
    | diagnostic | leaveFunction => rfl
    | enterScope n parent => exact (record_enterScope n parent).symm
    | leaveScope n => exact (record_leaveScope n).symm
  · cases e with
    | diagnostic d => exact .diagnostic d
    | enterScope n parent =>
      rw [record_enterScope]
      exact .enterScope n parent
    | leaveScope n =>
      rw [record_leaveScope]
      exact .leaveScope n
    | leaveFunction name => exact .leaveFunction name

/-! ## Reading events back -/

theorem enterScope_inj {n parent n' parent' : Nat}
    (h : (enterScope n parent).record.message = (enterScope n' parent').record.message) :
    n = n' ∧ parent = parent' := by
  simp only [record_enterScope, String.append_left_inj] at h
  obtain ⟨h, hparent⟩ := append_repr_inj (by simp [endsInDigit]) h
  exact ⟨Nat.repr_injective ((String.append_right_inj _).mp h), hparent⟩

theorem leaveScope_inj {n n' : Nat}
    (h : (leaveScope n).record.message = (leaveScope n').record.message) : n = n' := by
  simp only [record_leaveScope, String.append_left_inj, String.append_right_inj] at h
  exact Nat.repr_injective h

@[simp] theorem start_enterScope (n parent : Nat) :
    (enterScope n parent).record.start = "enter s".toList := by
  simp [Record.start, record_enterScope]

@[simp] theorem start_leaveScope (n : Nat) : (leaveScope n).record.start = "leave s".toList := by
  simp [Record.start, record_leaveScope]

@[simp] theorem start_leaveFunction (name : String) :
    (leaveFunction name).record.start = "leave f".toList := by
  simp [Record.start, record_leaveFunction]

/-- Events with the same record are the same up to columns. -/
theorem record_inj {e e' : Event} (h : e.record = e'.record) :
    e.relabel .columnless = e'.relabel .columnless := by
  have hlevel := congrArg Record.level h
  have htext := congrArg Record.message h
  have hstart := congrArg Record.start h
  cases e with
  | diagnostic d =>
    cases e' with
    | diagnostic d' =>
      have hmessage : d.message = d'.message := (String.append_right_inj _).mp htext
      exact congrArg diagnostic (Diagnostic.message_eq_iff.mp hmessage)
    | _ => cases hlevel
  | enterScope n parent =>
    cases e' with
    | diagnostic => cases hlevel
    | enterScope =>
      obtain ⟨rfl, rfl⟩ := enterScope_inj htext
      rfl
    | leaveScope | leaveFunction => simp at hstart
  | leaveScope n =>
    cases e' with
    | diagnostic => cases hlevel
    | leaveScope =>
      obtain rfl := leaveScope_inj htext
      rfl
    | _ => simp at hstart
  | leaveFunction name =>
    cases e' with
    | diagnostic => cases hlevel
    | leaveFunction name' =>
      have hname : name = name' :=
        (String.append_right_inj _).mp ((String.append_left_inj _).mp htext)
      rw [hname]
    | _ => simp at hstart

end Event

/-! ## Logs -/

/-- A record tells of one event only, up to columns. -/
theorem Record.Tells.unique {x : Record} {e e' : Event} (h : x.Tells e) (h' : x.Tells e') :
    e.relabel .columnless = e'.relabel .columnless :=
  Event.record_inj ((Event.tells_iff.mp h).symm.trans (Event.tells_iff.mp h'))

theorem forall₂_tells_records (es : List Event) :
    List.Forall₂ Record.Tells (es.map Event.record) es := by
  induction es with
  | nil => exact .nil
  | cons e rest ih => exact .cons (Event.tells_iff.mpr rfl) ih

/-- Two readings of a log have the same events, up to columns. -/
theorem readings_unique {lines : List Record} {es es' : List Event}
    (h : List.Forall₂ Record.Tells lines es) (h' : List.Forall₂ Record.Tells lines es') :
    es.map (Event.relabel .columnless) = es'.map (Event.relabel .columnless) := by
  induction h generalizing es' with
  | nil =>
    cases h'
    rfl
  | cons hx _ ih =>
    cases h' with
    | cons hx' hrest => rw [List.map_cons, List.map_cons, hx.unique hx', ih hrest]

end CSubset
