-- SUMMARY: The log of a check is well nested: scopes are entered in order, inside each other, and left where they end.
import CSubset.Proofs.Events.Course
import CSubset.Proofs.Events.Records
import CSubset.Proofs.Scoping.BlockStructure

/-!
# Nesting of events

Entering and leaving scopes are brackets. `WellNested` says that they match, each closing bracket
being the one that belongs to the scope, that a scope is entered in the innermost one that is open,
and that what is reported between the brackets stems from the scope. `check_events_nested` collects
what the log of a check says about its scopes; all of it is read off the course of the check, and
the lines of the log say as much as the events do.
-/

namespace CSubset

open ScopeTree Nest

/-- The number of the scope that is entered. -/
def Event.entered? : Event → Option Nat
  | .enterScope n _ => some n
  | _ => none

/-- Events in scope `s`. Each scope entered there is closed by the event that belongs to it, behind
events inside it that are well nested themselves and whose diagnostics stem from it. -/
inductive WellNested (closing : Nat → Event) (stems : Nat → Diagnostic → Prop) :
    Nat → List Event → Prop where
  | nil {s : Nat} : WellNested closing stems s []
  | diagnostic {s : Nat} {d : Diagnostic} {es : List Event} (h : WellNested closing stems s es) :
      WellNested closing stems s (.diagnostic d :: es)
  | scope {s n : Nat} {inside es : List Event} (hi : WellNested closing stems n inside)
      (hd : ∀ d, .diagnostic d ∈ inside → stems n d) (h : WellNested closing stems s es) :
      WellNested closing stems s (.enterScope n s :: (inside ++ closing n :: es))

/-! ## Bodies of functions -/

/-- The function whose body is block number `n`, if the first of the functions has block `k`. -/
def bodyFrom? (k : Nat) (fs : List (Prototype × Block)) (n : Nat) : Option (Prototype × Block) :=
  ((starts k (fs.map bodyNestOf)).zip fs).lookup n

/-- The event that closes scope `n`, given the function whose body it is, if it is one. -/
def closingFor (n : Nat) (f : Option (Prototype × Block)) : Event :=
  f.elim (.leaveScope n) fun f => .leaveFunction f.1.name

namespace CompilationUnit

/-- The function whose body is scope `n`: the bodies of functions are the blocks directly inside
the file. -/
def bodyOf? (u : CompilationUnit) (n : Nat) : Option (Prototype × Block) :=
  ((starts 1 u.nest.inner).zip u.definitions).lookup n

/-- The event that closes scope `n`: leaving the function if it is the body of one, else leaving
the scope. -/
def closing (u : CompilationUnit) (n : Nat) : Event := closingFor n (u.bodyOf? n)

/-- A diagnostic at a position in the block of scope `n` or at a parameter that belongs to it. -/
def Stems (u : CompilationUnit) (n : Nat) (d : Diagnostic) : Prop :=
  ∃ b, u.nest.preorder[n]? = some b ∧ ∃ l ∈ b.positions, d.location? = some l

end CompilationUnit

section bodies

variable {k n : Nat} {f g : Prototype × Block} {fs : List (Prototype × Block)}

theorem bodyFrom?_cons (k n : Nat) (f : Prototype × Block) (fs : List (Prototype × Block)) :
    bodyFrom? k (f :: fs) n =
      if n = k then some f else bodyFrom? (k + (bodyNestOf f).preorder.length) fs n := by
  have hlookup : bodyFrom? k (f :: fs) n =
      ((k, f) :: (starts (k + (bodyNestOf f).preorder.length) (fs.map bodyNestOf)).zip fs).lookup
        n := rfl
  rw [hlookup, List.lookup_cons]
  by_cases h : n = k
  · rw [if_pos h, beq_iff_eq.mpr h]
  · rw [if_neg h, beq_eq_false_iff_ne.mpr h]
    rfl

theorem bodyFrom?_eq_none (h : n < k) : bodyFrom? k fs n = none := by
  induction fs generalizing k with
  | nil => rfl
  | cons f rest ih =>
    rw [bodyFrom?_cons, if_neg (Nat.ne_of_lt h)]
    exact ih (Nat.lt_add_right _ h)

theorem bodyFrom?_tail (h : bodyFrom? (k + (bodyNestOf f).preorder.length) fs n = some g) :
    bodyFrom? k (f :: fs) n = some g := by
  have hpos := (bodyNestOf f).length_preorder_pos
  rw [bodyFrom?_cons, if_neg, h]
  rintro rfl
  rw [bodyFrom?_eq_none (Nat.lt_add_of_pos_right hpos)] at h
  cases h

theorem length_preorder_bodyNestOf (f : Prototype × Block) :
    (bodyNestOf f).preorder.length = 1 + (preorderAll (bodyNestOf f).inner).length := by
  rw [preorder_eq, List.length_cons, Nat.add_comm]

end bodies

/-- The blocks directly inside the file are the bodies of the functions that are defined. -/
theorem CompilationUnit.inner_nest (u : CompilationUnit) :
    u.nest.inner = u.definitions.map bodyNestOf := by
  obtain ⟨ds⟩ := u
  have hnests : ds.flatMap External.nests = (definitions ⟨ds⟩).map bodyNestOf := by
    induction ds with
    | nil => rfl
    | cons d rest ih =>
      rw [List.flatMap_cons, ih]
      rcases d with (p | v) | ⟨p, body⟩ <;> rfl
  exact hnests

/-! ## In a block -/

section course

variable {closing : Nat → Event} {stems : Nat → Diagnostic → Prop} {s k n p : Nat}
  {bs : List Nest} {ls : List Location} {es : List Event}

theorem Course.wellNested (h : Course s k bs ls es)
    (hclosing : ∀ n, k ≤ n → n < k + (preorderAll bs).length → closing n = .leaveScope n)
    (hstems : ∀ x ∈ placesAll (some s) k bs, ∀ d : Diagnostic, d.At x.nest.positions →
      stems x.number d) :
    WellNested closing stems s es := by
  induction h with
  | nil => exact .nil
  | diagnostic _ _ ih => exact .diagnostic (ih hclosing hstems)
  | @block s k b bs _ _ inside es hb hms _ _ ihb ih =>
    have hlength : (preorderAll (b :: bs)).length =
        b.preorder.length + (preorderAll bs).length := by
      rw [preorderAll, List.length_append]
    have hinner : b.preorder.length = (preorderAll b.inner).length + 1 := by
      rw [preorder_eq, List.length_cons]
    rw [placesAll, places_eq] at hstems
    obtain ⟨hself, hinside⟩ := List.forall_mem_cons.mp fun x hx =>
      hstems x (List.mem_append_left _ hx)
    rw [← hclosing k (Nat.le_refl k) (by omega)]
    refine .scope (ihb (fun n hn hlt => hclosing n (by omega) (by omega)) hinside) ?_
      (ih (fun n hn hlt => hclosing n (by omega) (by omega)) fun x hx =>
        hstems x (List.mem_append_right _ hx))
    exact fun d hd => hself d ((hb.diagnostic_at hd).widen hms)

/-- A scope is entered with the number of its block and of the block around it. -/
theorem Course.place (h : Course s k bs ls es) (hn : .enterScope n p ∈ es) :
    ∃ b, ⟨some p, n, b⟩ ∈ placesAll (some s) k bs := by
  induction h with
  | nil => cases hn
  | diagnostic _ _ ih => exact ih (List.mem_of_ne_of_mem Event.noConfusion hn)
  | @block s k b bs _ _ inside es _ _ _ _ ihb ih =>
    simp only [placesAll, places_eq, List.mem_append, List.mem_cons] at hn ⊢
    rcases hn with heq | hn | heq | hn
    · cases heq
      exact ⟨b, .inl (.inl rfl)⟩
    · obtain ⟨c, hc⟩ := ihb hn
      exact ⟨c, .inl (.inr hc)⟩
    · cases heq
    · obtain ⟨c, hc⟩ := ih hn
      exact ⟨c, .inr hc⟩

theorem filterMap_bracket {closed : Event} (hclosed : closed.entered? = none)
    (n p : Nat) (inside es : List Event) :
    (.enterScope n p :: (inside ++ closed :: es)).filterMap Event.entered? =
      n :: (inside.filterMap Event.entered? ++ es.filterMap Event.entered?) := by
  have hinside : (inside ++ closed :: es).filterMap Event.entered? =
      inside.filterMap Event.entered? ++ es.filterMap Event.entered? := by
    rw [List.filterMap_append, List.filterMap_cons_none hclosed]
  exact congrArg (n :: ·) hinside

/-- The numbers from `k` on, first those of a block and then those behind it. -/
theorem bracket_numbers (k m : Nat) (b : Nest) :
    k :: (List.range' (k + 1) (preorderAll b.inner).length ++
      List.range' (k + b.preorder.length) m) = List.range' k (b.preorder.length + m) := by
  rw [preorder_eq b, List.length_cons, ← List.cons_append, ← List.range'_succ, List.range'_append_1]

theorem Course.entered (h : Course s k bs ls es) :
    es.filterMap Event.entered? = List.range' k (preorderAll bs).length := by
  induction h with
  | nil => rfl
  | diagnostic _ _ ih =>
    rw [List.filterMap_cons_none rfl]
    exact ih
  | @block s k b bs _ _ inside es _ _ _ _ ihb ih =>
    rw [filterMap_bracket rfl, ihb, ih, bracket_numbers, preorderAll, List.length_append]

end course

/-! ## In the file -/

section file

variable {closing : Nat → Event} {stems : Nat → Diagnostic → Prop} {k n p : Nat}
  {f : Prototype × Block} {fs : List (Prototype × Block)} {es : List Event}

/-- Closing events and positions as they belong to the blocks of functions from number `k` on. -/
structure Serves (closing : Nat → Event) (stems : Nat → Diagnostic → Prop) (k : Nat)
    (fs : List (Prototype × Block)) : Prop where
  closing : ∀ n, k ≤ n → closing n = closingFor n (bodyFrom? k fs n)
  stems : ∀ x ∈ placesAll (some root) k (fs.map bodyNestOf), ∀ d : Diagnostic,
    d.At x.nest.positions → stems x.number d

namespace Serves

theorem tail (h : Serves closing stems k (f :: fs)) :
    Serves closing stems (k + (bodyNestOf f).preorder.length) fs where
  closing n hn := by
    have hpos := (bodyNestOf f).length_preorder_pos
    rw [h.closing n (by omega), bodyFrom?_cons, if_neg (by omega)]
  stems x hx := h.stems x (List.mem_append_right _ hx)

theorem body (h : Serves closing stems k (f :: fs)) : closing k = .leaveFunction f.1.name := by
  rw [h.closing k (Nat.le_refl k), bodyFrom?_cons, if_pos rfl]
  rfl

theorem inside (h : Serves closing stems k (f :: fs)) {ms : List Location} {inside : List Event}
    (hb : Course k (k + 1) (bodyNestOf f).inner ms inside) (hms : ms ⊆ (bodyNestOf f).positions) :
    WellNested closing stems k inside ∧ ∀ d, .diagnostic d ∈ inside → stems k d := by
  have hstems : ∀ x ∈ (bodyNestOf f).places (some root) k, ∀ d : Diagnostic,
      d.At x.nest.positions → stems x.number d :=
    fun x hx => h.stems x (List.mem_append_left _ hx)
  have hlength := length_preorder_bodyNestOf f
  rw [places_eq] at hstems
  obtain ⟨hself, hinner⟩ := List.forall_mem_cons.mp hstems
  refine ⟨hb.wellNested (fun n hn hlt => ?_) hinner, fun d hd =>
    hself d ((hb.diagnostic_at hd).widen hms)⟩
  rw [h.closing n (by omega), bodyFrom?_cons, if_neg (by omega), bodyFrom?_eq_none (by omega)]
  rfl

end Serves

theorem WellNested.prepend {s : Nat} (h : WellNested closing stems s es) (ds : List Diagnostic) :
    WellNested closing stems s (ds.map Event.diagnostic ++ es) := by
  induction ds with
  | nil => exact h
  | cons d rest ih => exact .diagnostic ih

theorem FileCourse.wellNested (h : FileCourse k fs es) (hs : Serves closing stems k fs) :
    WellNested closing stems root es := by
  induction h with
  | nil => exact .nil
  | diagnostic _ _ ih => exact .diagnostic (ih hs)
  | body hb hms _ ih =>
    obtain ⟨hinside, hstems⟩ := hs.inside hb hms
    rw [← hs.body]
    exact .scope hinside hstems ((ih hs.tail).prepend _)

theorem FileCourse.place (h : FileCourse k fs es) (hn : .enterScope n p ∈ es) :
    ∃ b, ⟨some p, n, b⟩ ∈ placesAll (some root) k (fs.map bodyNestOf) := by
  induction h with
  | nil => cases hn
  | diagnostic _ _ ih => exact ih (List.mem_of_ne_of_mem Event.noConfusion hn)
  | @body k f fs _ inside es hb _ _ ih =>
    simp only [List.map_cons, placesAll, places_eq, List.mem_append, List.mem_cons,
      List.mem_map] at hn ⊢
    rcases hn with heq | hn | heq | ⟨d, -, heq⟩ | hn
    · cases heq
      exact ⟨_, .inl (.inl rfl)⟩
    · obtain ⟨c, hc⟩ := hb.place hn
      exact ⟨c, .inl (.inr hc)⟩
    · cases heq
    · cases heq
    · obtain ⟨c, hc⟩ := ih hn
      exact ⟨c, .inr hc⟩

theorem FileCourse.entered (h : FileCourse k fs es) :
    es.filterMap Event.entered? =
      List.range' k (preorderAll (fs.map bodyNestOf)).length := by
  induction h with
  | nil => rfl
  | diagnostic _ _ ih =>
    rw [List.filterMap_cons_none rfl]
    exact ih
  | @body k f fs _ inside es hb _ _ ih =>
    have hmissing :
        ((f.1.missingReturn f.2).map Event.diagnostic).filterMap Event.entered? = [] := by
      rw [List.filterMap_map]
      exact List.filterMap_eq_nil_iff.mpr fun _ _ => rfl
    rw [filterMap_bracket rfl, List.filterMap_append, hmissing, List.nil_append, hb.entered, ih,
      bracket_numbers, List.map_cons, preorderAll, List.length_append]

/-- Events end where a function is left, and are well nested from its start on. -/
def Leaves (closing : Nat → Event) (stems : Nat → Diagnostic → Prop) (n : Nat)
    (f : Prototype × Block) (before : List Event) : Prop :=
  ∃ outside inside,
    before = outside ++ .enterScope n root :: (inside ++ [.leaveFunction f.1.name]) ∧
      WellNested closing stems n inside

theorem Leaves.cons (h : Leaves closing stems n f es) (x : Event) :
    Leaves closing stems n f (x :: es) := by
  obtain ⟨outside, inside, rfl, hinside⟩ := h
  exact ⟨x :: outside, inside, rfl, hinside⟩

theorem Leaves.append (h : Leaves closing stems n f es) (front : List Event) :
    Leaves closing stems n f (front ++ es) := by
  induction front with
  | nil => exact h
  | cons x rest ih => exact ih.cons x

/-- A missing return is reported where its function has just been left. -/
theorem FileCourse.missingReturn (h : FileCourse k fs es) (hs : Serves closing stems k fs)
    {before after : List Event} {name : String} {l : Location}
    (heq : es = before ++ .diagnostic (.missingReturn name l) :: after) :
    ∃ n f, bodyFrom? k fs n = some f ∧ f.1.name = name ∧ f.1.location = l ∧
      Leaves closing stems n f before := by
  induction h generalizing before with
  | nil => exact absurd heq (by simp)
  | diagnostic hd _ ih =>
    rcases before with _ | ⟨x, before⟩
    · cases heq
      exact absurd rfl hd
    · obtain ⟨rfl, htail⟩ := List.cons.inj heq
      obtain ⟨n, f, hn, hname, hl, hleaves⟩ := ih hs htail
      exact ⟨n, f, hn, hname, hl, hleaves.cons _⟩
  | @body k f fs ms inside es hb hms _ ih =>
    -- what is reported behind the events of this function
    have hlater (front : List Event) {before : List Event}
        (hes : es = before ++ .diagnostic (.missingReturn name l) :: after) :
        ∃ n g, bodyFrom? k (f :: fs) n = some g ∧ g.1.name = name ∧ g.1.location = l ∧
          Leaves closing stems n g (front ++ before) := by
      obtain ⟨n, g, hn, hname, hl, hleaves⟩ := ih hs.tail hes
      exact ⟨n, g, bodyFrom?_tail hn, hname, hl, hleaves.append front⟩
    rcases before with _ | ⟨x, before⟩
    · cases heq
    obtain ⟨rfl, htail⟩ := List.cons.inj heq
    rcases List.append_eq_append_iff.mp htail with ⟨behind, rfl, hleft⟩ | ⟨behind, rfl, hleft⟩
    · rcases behind with _ | ⟨x, behind⟩
      · cases hleft
      obtain ⟨rfl, hmissing⟩ := List.cons.inj hleft
      unfold Prototype.missingReturn at hmissing
      split at hmissing
      · have hfound := hlater (.enterScope k root :: (inside ++ [.leaveFunction f.1.name])) hmissing
        simpa using hfound
      · rcases behind with _ | ⟨x, behind⟩
        · cases hmissing
          have hbody : bodyFrom? k (f :: fs) k = some f := by
            rw [bodyFrom?_cons, if_pos rfl]
          exact ⟨k, f, hbody, rfl, rfl, [], inside, rfl, (hs.inside hb hms).1⟩
        · obtain ⟨rfl, hbehind⟩ := List.cons.inj hmissing
          have hfound := hlater (.enterScope k root :: (inside ++
            [.leaveFunction f.1.name, .diagnostic (.missingReturn f.1.name f.1.location)])) hbehind
          simpa using hfound
    · rcases behind with _ | ⟨x, behind⟩
      · cases hleft
      obtain ⟨rfl, -⟩ := List.cons.inj hleft
      exact absurd rfl (hb.diagnostic_at (List.mem_append_right _ List.mem_cons_self)).1

end file

theorem CompilationUnit.serves (u : CompilationUnit) :
    Serves u.closing u.Stems 1 u.definitions where
  closing n _ := by
    rw [closing, bodyOf?, bodyFrom?, u.inner_nest]
  stems x hx d hd := by
    have hplace : x ∈ u.nest.places none 0 := by
      rw [places_eq, u.inner_nest]
      exact List.mem_cons_of_mem _ hx
    exact ⟨x.nest, nest_of_getElem? (getElem?_of_mem hplace), hd.2⟩

/-- Among the records of a check those of diagnostics are the ones for debugging. -/
theorem Report.debug_records (r : Report) (u : CompilationUnit) :
    (r.records u).filter (fun x => x.level = .debug) =
      r.diagnostics.map fun d => ⟨.debug, .walk, "diagnostic: " ++ d.message⟩ := by
  have hevents (es : List Event) :
      (es.map Event.record).filter (fun x => x.level = .debug) =
        (Findings.diagnostics ⟨es, [], []⟩).map
          fun d => ⟨.debug, .walk, "diagnostic: " ++ d.message⟩ := by
    induction es with
    | nil => rfl
    | cons x rest ih =>
      cases x with
      | diagnostic d =>
        rw [List.map_cons, List.filter_cons_of_pos (by rfl), ih]
        rfl
      | _ =>
        rw [List.map_cons, List.filter_cons_of_neg (by simp [Event.record]), ih]
        rfl
  rw [records, List.filter_append, hevents, List.filter_cons_of_neg (by simp), List.filter_nil,
    List.append_nil]
  rfl

/-- The log of a check, record by record. Scopes are entered under the numbers from 1 on, one for
each scope of the report but the file. The scopes are brackets that match: a scope is entered in the
innermost open one, which is its parent in the report, and is closed by leaving it or, if it is the
body of a function, by leaving that function, and what is reported in between stands in its block or
at a parameter. Each record but the last one tells of its event, with the numbers and the names in
its text, and the events can be read back from the records, up to columns of diagnostics. The
diagnostics are those of the report, in its order; and a missing return is reported directly behind
leaving the function that lacks it. -/
theorem check_events_nested (u : CompilationUnit) (returnTypes : Bool) :
    let r := u.check returnTypes
    r.findings.events.filterMap Event.entered? = List.range' 1 (r.scopes.size - 1) ∧
      WellNested u.closing u.Stems root r.findings.events ∧
      (∀ n p, .enterScope n p ∈ r.findings.events → (r.scopes.scope n).parent = some p) ∧
      (∃ lines summary, summary.level = .info ∧ r.records u = lines ++ [summary] ∧
        List.Forall₂ Record.Tells lines r.findings.events ∧
        ∀ es, List.Forall₂ Record.Tells lines es →
          es.map (Event.relabel .columnless) =
            r.findings.events.map (Event.relabel .columnless)) ∧
      (r.records u).filter (fun x => x.level = .debug) =
        r.diagnostics.map (fun d => ⟨.debug, .walk, "diagnostic: " ++ d.message⟩) ∧
      ∀ before after name l,
        r.findings.events = before ++ .diagnostic (.missingReturn name l) :: after →
          ∃ n f, u.bodyOf? n = some f ∧ f.1.name = name ∧ f.1.location = l ∧
            Leaves u.closing u.Stems n f before := by
  intro r
  have hcourse := u.check_course returnTypes
  have hplaces := u.check_scopes returnTypes
  have htells := forall₂_tells_records r.findings.events
  refine ⟨?_, hcourse.wellNested u.serves, fun n p hn => ?_,
    ⟨_, _, rfl, rfl, htells, fun es hes => readings_unique hes htells⟩, r.debug_records u,
    fun before after name l heq => ?_⟩
  · have hsize : r.scopes.size = u.nest.preorder.length := (mirrors_of_places hplaces).size
    rw [hcourse.entered, hsize, preorder_eq, List.length_cons, u.inner_nest, Nat.add_sub_cancel]
  · obtain ⟨b, hb⟩ := hcourse.place hn
    have hplace : ⟨some p, n, b⟩ ∈ u.nest.places none 0 := by
      rw [places_eq, u.inner_nest]
      exact List.mem_cons_of_mem _ hb
    exact (congrArg Scope.parent (scope_of_places hplaces hplace)).trans (Placed.scope_parent _)
  · obtain ⟨n, f, hn, hname, hl, hleaves⟩ := hcourse.missingReturn u.serves heq
    refine ⟨n, f, ?_, hname, hl, hleaves⟩
    rw [CompilationUnit.bodyOf?, u.inner_nest]
    exact hn

/-- A block in the body of a function that lacks a return, in a file without a main function. -/
theorem check_events_nested_shadowedParameter :
    let r := shadowedParameterUnit.check true
    r.records shadowedParameterUnit =
        [⟨.trace, .walk, "enter scope ScopeId(1) (parent ScopeId(0))"⟩,
          ⟨.trace, .walk, "enter scope ScopeId(2) (parent ScopeId(1))"⟩,
          ⟨.trace, .walk, "leave scope ScopeId(2)"⟩,
          ⟨.trace, .walk, "leave function 'f'"⟩,
          ⟨.debug, .walk, "diagnostic: Function 'f' declared at line 1 does not return a value"⟩,
          ⟨.debug, .walk, "diagnostic: No main() function found"⟩,
          ⟨.info, .check, "checked 1 declarations: 2 diagnostics, 3 scopes, ok = false"⟩] ∧
      r.findings.events.filterMap Event.entered? = [1, 2] ∧
      WellNested shadowedParameterUnit.closing shadowedParameterUnit.Stems root
        r.findings.events ∧
      ∃ n f, shadowedParameterUnit.bodyOf? n = some f ∧ f.1.name = "f" ∧ f.1.location = ⟨1, 5⟩ ∧
        Leaves shadowedParameterUnit.closing shadowedParameterUnit.Stems n f
          [.enterScope 1 root, .enterScope 2 1, .leaveScope 2, .leaveFunction "f"] := by
  intro r
  obtain ⟨hentered, hnested, -, -, -, hmissing⟩ :=
    check_events_nested shadowedParameterUnit true
  have hbefore : r.findings.events =
      [.enterScope 1 root, .enterScope 2 1, .leaveScope 2, .leaveFunction "f"] ++
        .diagnostic (.missingReturn "f" ⟨1, 5⟩) :: [.diagnostic (.missingMain 0)] := by
    decide +kernel
  have hsize : r.scopes.size = 3 := by decide +kernel
  rw [hsize] at hentered
  exact ⟨by decide +kernel, hentered, hnested, hmissing _ _ _ _ hbefore⟩

end CSubset
