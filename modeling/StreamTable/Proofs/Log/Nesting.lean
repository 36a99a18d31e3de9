/-
Contexts nest.  There is no stack of contexts: each remembers the one that it was last entered from,
and goes back to it when it is left.  `Chained` says that what the contexts remember spells the
stack out, from the innermost context of a thread down to the one that was current at first.  Every
step of any thread keeps the chain as long as no context of the chain is entered once more, for that
overwrites what it remembers: `entered_twice_stays` is what becomes of it.
-/
import Mathlib.Data.List.Induction
import StreamTable.Log.Context

namespace StreamTable
namespace Log
namespace ThreadContexts

/-- A step of a thread. -/
structure Step where
  thread : Nat
  what : ContextStep

def apply (s : ThreadContexts) (e : Step) : ThreadContexts := s.act e.thread e.what.apply

def after (s : ThreadContexts) (es : List Step) : ThreadContexts := es.foldl apply s

/-- The attributes of a context, which do not depend on who asks. -/
def attributes (s : ThreadContexts) (id : Nat) : List (Value × Value) :=
  ((s.all[id]?).map Context.attributes).getD []

/-- The attributes that events of a thread take on. -/
def shown (s : ThreadContexts) (thread : Nat) : List (Value × Value) :=
  (s.seenBy thread).currentAttributes

/-! ## What a run comes to if contexts nest -/

/-- The contexts that a thread has entered and not left after a step, innermost first. -/
def stacked (thread : Nat) (stack : List Nat) (e : Step) : List Nat :=
  if e.thread = thread then
    match e.what with
    | .make _ => stack
    | .enter id => id :: stack
    | .leave _ => stack.tail
  else stack

def stack (thread : Nat) (es : List Step) : List Nat := es.foldl (stacked thread) []

/-- Each step has a property that depends on the steps before it. -/
def AtEach (P : List Step → Step → Prop) (es : List Step) : Prop :=
  ∀ before e rest, es = before ++ e :: rest → P before e

/-- A thread leaves no other context than the innermost one. -/
def Nested (thread : Nat) : List Step → Prop :=
  AtEach fun before e => ∀ id, e = ⟨thread, .leave id⟩ → (stack thread before).head? = some id

/-- None of the contexts that a thread has entered and not left is entered once more, be it by the
same thread or by another one. -/
def Undisturbed (thread : Nat) : List Step → Prop :=
  AtEach fun before e => ∀ other id, e = ⟨other, .enter id⟩ → id ∉ stack thread before

/-- Only contexts that were made are entered. -/
def Existing (s : ThreadContexts) : List Step → Prop :=
  AtEach fun before e => ∀ other id, e = ⟨other, .enter id⟩ → id < (s.after before).all.length

section AtEach

variable {P : List Step → Step → Prop}

theorem atEach_nil : AtEach P [] := by
  intro before e rest h
  exact absurd h.symm (List.append_ne_nil_of_right_ne_nil before (List.cons_ne_nil e rest))

theorem atEach_cons {e : Step} {es : List Step} :
    AtEach P (e :: es) ↔ P [] e ∧ AtEach (fun before => P (e :: before)) es := by
  constructor
  · intro h
    exact ⟨h [] e es rfl, fun before d rest hes => h (e :: before) d rest (by rw [hes]; rfl)⟩
  · rintro ⟨hfirst, hrest⟩ before d rest h
    cases before with
    | nil =>
      obtain ⟨rfl, -⟩ := List.cons.inj h
      exact hfirst
    | cons e' before =>
      obtain ⟨rfl, hes⟩ := List.cons.inj h
      exact hrest before d rest hes

theorem AtEach.left {es more : List Step} (h : AtEach P (es ++ more)) : AtEach P es := by
  intro before e rest hes
  exact h before e (rest ++ more) (by rw [hes, List.append_assoc, List.cons_append])

theorem AtEach.last {es : List Step} {e : Step} (h : AtEach P (es ++ [e])) : P es e :=
  h es e [] rfl

end AtEach

/-! ## Steps -/

variable {s : ThreadContexts} {thread : Nat}

theorem after_concat (s : ThreadContexts) (es : List Step) (e : Step) :
    s.after (es ++ [e]) = (s.after es).apply e := by
  rw [after, List.foldl_append]
  rfl

theorem after_append (s : ThreadContexts) (es more : List Step) :
    s.after (es ++ more) = (s.after es).after more := List.foldl_append

theorem stack_concat (thread : Nat) (es : List Step) (e : Step) :
    stack thread (es ++ [e]) = stacked thread (stack thread es) e := by
  rw [stack, List.foldl_append]
  rfl

/-- A step of another thread does not change which context is current. -/
theorem current_of_other {e : Step} (h : e.thread ≠ thread) (s : ThreadContexts) :
    (s.apply e).current thread = s.current thread := if_neg h.symm

theorem apply_make_all (s : ThreadContexts) (t : Nat) (given : List (Value × Value)) :
    (s.apply ⟨t, .make given⟩).all = s.all ++ [⟨given.filter fun e => !e.2.isNull, none⟩] := rfl

theorem apply_enter_all (s : ThreadContexts) (t id : Nat) :
    (s.apply ⟨t, .enter id⟩).all =
      s.all.modify id fun c => { c with previous := s.current t } := rfl

theorem apply_leave_all (s : ThreadContexts) (t id : Nat) :
    (s.apply ⟨t, .leave id⟩).all = s.all := rfl

theorem getElem?_modify_other {all : List Context} {id other : Nat} (h : id ≠ other)
    (f : Context → Context) : (all.modify other f)[id]? = all[id]? := by
  rw [List.getElem?_modify]
  simp [h.symm]

/-- No context is ever lost, and none changes its attributes. -/
theorem attributes_apply (s : ThreadContexts) (e : Step) {id : Nat} (h : id < s.all.length) :
    id < (s.apply e).all.length ∧ (s.apply e).attributes id = s.attributes id := by
  obtain ⟨t, given | other | other⟩ := e
  · rw [attributes, apply_make_all, List.length_append, List.getElem?_append_left h]
    exact ⟨Nat.lt_add_right _ h, rfl⟩
  · rw [attributes, apply_enter_all, List.length_modify, List.getElem?_modify, attributes]
    refine ⟨h, ?_⟩
    cases s.all[id]? with
    | none => rfl
    | some c => by_cases hid : other = id <;> simp [hid]
  · exact ⟨h, rfl⟩

theorem attributes_after (s : ThreadContexts) (es : List Step) {id : Nat}
    (h : id < s.all.length) :
    id < (s.after es).all.length ∧ (s.after es).attributes id = s.attributes id := by
  induction es generalizing s with
  | nil => exact ⟨h, rfl⟩
  | cons e es ih =>
    obtain ⟨hlength, heq⟩ := attributes_apply s e h
    obtain ⟨hlength', heq'⟩ := ih (s.apply e) hlength
    exact ⟨hlength', heq'.trans heq⟩

/-! ## The chain -/

/-- Each context of a stack remembers the next one, and the last one the context that was current at
first. -/
def Chained (all : List Context) (first : Option Nat) : List Nat → Prop
  | [] => True
  | id :: rest =>
    (∃ c, all[id]? = some c ∧ c.previous = rest.head?.or first) ∧ Chained all first rest

/-- The innermost context is current, and the contexts remember the stack. -/
structure Spelt (s : ThreadContexts) (thread : Nat) (first : Option Nat) (stack : List Nat) :
    Prop where
  current : s.current thread = stack.head?.or first
  chained : Chained s.all first stack

variable {first : Option Nat} {ids : List Nat}

theorem Chained.lt_length {all : List Context} (h : Chained all first ids) :
    ∀ id ∈ ids, id < all.length := by
  induction ids with
  | nil => exact List.forall_mem_nil _
  | cons id rest ih =>
    obtain ⟨⟨c, hc, -⟩, hrest⟩ := h
    exact List.forall_mem_cons.mpr ⟨(List.getElem?_eq_some_iff.mp hc).1, ih hrest⟩

/-- The chain depends on its own contexts alone. -/
theorem Chained.congr {all all' : List Context} (h : Chained all first ids)
    (heq : ∀ id ∈ ids, all'[id]? = all[id]?) : Chained all' first ids := by
  induction ids with
  | nil => trivial
  | cons id rest ih =>
    obtain ⟨⟨c, hc, hprevious⟩, hrest⟩ := h
    obtain ⟨hid, hids⟩ := List.forall_mem_cons.mp heq
    exact ⟨⟨c, hid.trans hc, hprevious⟩, ih hrest hids⟩

theorem Chained.enter {all : List Context} (h : Chained all first ids) {id : Nat} (hid : id ∉ ids)
    (f : Context → Context) : Chained (all.modify id f) first ids :=
  h.congr fun id' hid' => getElem?_modify_other (by rintro rfl; exact hid hid') f

theorem Chained.make {all : List Context} (h : Chained all first ids) (c : Context) :
    Chained (all ++ [c]) first ids :=
  h.congr fun id hid => List.getElem?_append_left (h.lt_length id hid)

/-- One step keeps the chain. -/
theorem Spelt.apply (h : s.Spelt thread first ids) {e : Step}
    (hexisting : ∀ other id, e = ⟨other, .enter id⟩ → id < s.all.length)
    (hnested : ∀ id, e = ⟨thread, .leave id⟩ → ids.head? = some id)
    (hundisturbed : ∀ other id, e = ⟨other, .enter id⟩ → id ∉ ids) :
    (s.apply e).Spelt thread first (stacked thread ids e) := by
  obtain ⟨hcurrent, hchained⟩ := h
  obtain ⟨t, what⟩ := e
  by_cases ht : t = thread
  · subst ht
    have happly : (s.apply ⟨t, what⟩).current t = (what.apply (s.seenBy t)).current := if_pos rfl
    rw [stacked, if_pos rfl]
    cases what with
    | make given =>
      exact ⟨happly.trans hcurrent, hchained.make _⟩
    | enter id =>
      have hlength := hexisting t id rfl
      refine ⟨happly, ⟨{ s.all[id] with previous := s.current t }, ?_, hcurrent⟩, ?_⟩
      · rw [apply_enter_all, List.getElem?_modify, List.getElem?_eq_getElem hlength]
        simp
      · exact hchained.enter (hundisturbed t id rfl) _
    | leave id =>
      cases ids with
      | nil => cases hnested id rfl
      | cons id' rest =>
        obtain ⟨⟨c, hc, hprevious⟩, hrest⟩ := hchained
        cases hnested id rfl
        refine ⟨happly.trans ?_, hrest⟩
        change (s.all[id]?).bind (·.previous) = _
        rw [hc, Option.bind_some, hprevious]
        rfl
  · rw [stacked, if_neg ht]
    refine ⟨(current_of_other ht s).trans hcurrent, ?_⟩
    cases what with
    | make given => exact hchained.make _
    | enter id => exact hchained.enter (hundisturbed t id rfl) _
    | leave id => exact hchained

/-- A whole run keeps the chain. -/
theorem spelt_after {es : List Step} (hexisting : Existing s es) (hnested : Nested thread es)
    (hundisturbed : Undisturbed thread es) :
    (s.after es).Spelt thread (s.current thread) (stack thread es) := by
  induction es using List.reverseRecOn with
  | nil => exact ⟨rfl, trivial⟩
  | append_singleton es e ih =>
    rw [after_concat, stack_concat]
    exact (ih hexisting.left hnested.left hundisturbed.left).apply hexisting.last hnested.last
      hundisturbed.last

/-! ## What events take on -/

theorem shown_of_current (h : s.current thread = first) :
    s.shown thread = (first.map s.attributes).getD [] := by
  rw [shown, Contexts.currentAttributes, seenBy, h]
  rfl

/-- A step of another thread never changes what events of a thread take on. -/
theorem shown_of_other (hcurrent : ∀ id ∈ s.current thread, id < s.all.length) {e : Step}
    (h : e.thread ≠ thread) : (s.apply e).shown thread = s.shown thread := by
  rw [shown_of_current (current_of_other h s), shown_of_current rfl]
  cases hc : s.current thread with
  | none => rfl
  | some id => exact (attributes_apply s e (hcurrent id hc)).2

/-- Contexts nest on each thread, whatever other threads do, as long as none that the thread has
entered and not left is entered once more.  At each moment of a run the events of the thread take on
the attributes of the innermost context that it has entered and not left, which are those that the
context was made with; if it has left all of them, they take on what they did at first; and no step
of another thread changes what they take on. -/
theorem contexts_nest (hcurrent : ∀ id ∈ s.current thread, id < s.all.length) {es : List Step}
    (hexisting : Existing s es) (hnested : Nested thread es)
    (hundisturbed : Undisturbed thread es) {before rest : List Step} (h : es = before ++ rest) :
    (∀ innermost ∈ (stack thread before).head?,
      (s.after before).shown thread = (s.after before).attributes innermost) ∧
    (stack thread before = [] → (s.after before).shown thread = s.shown thread) ∧
    (∀ earlier other given later, before = earlier ++ ⟨other, .make given⟩ :: later →
      (s.after before).attributes (s.after earlier).all.length =
        given.filter fun e => !e.2.isNull) ∧
    ∀ e : Step, e.thread ≠ thread →
      ((s.after before).apply e).shown thread = (s.after before).shown thread := by
  subst h
  have hspelt := spelt_after hexisting.left hnested.left hundisturbed.left
  refine ⟨fun innermost hinnermost => ?_, fun hstack => ?_,
    fun earlier other given later hb => ?_, fun e he => shown_of_other (fun id hid => ?_) he⟩
  · rw [shown_of_current hspelt.current, hinnermost]
    rfl
  · rw [hstack] at hspelt
    rw [shown_of_current hspelt.current, shown_of_current rfl, List.head?_nil, Option.none_or]
    cases hc : s.current thread with
    | none => rfl
    | some id => exact (attributes_after s before (hcurrent id hc)).2
  · have hlength : (s.after earlier).all.length <
        ((s.after earlier).apply ⟨other, .make given⟩).all.length := by
      rw [apply_make_all, List.length_append]
      exact Nat.lt_succ_self _
    rw [hb, after_append]
    refine (attributes_after _ later hlength).2.trans ?_
    rw [attributes, apply_make_all, List.getElem?_append_right (Nat.le_refl _), Nat.sub_self]
    rfl
  · rw [hspelt.current] at hid
    cases hstack : stack thread before with
    | nil =>
      rw [hstack] at hid
      exact (attributes_after s before (hcurrent id hid)).1
    | cons innermost others =>
      rw [hstack] at hid hspelt
      cases hid
      exact hspelt.chained.lt_length _ List.mem_cons_self

/-- Two contexts and a third one were made, and the first thread is inside the first one. -/
def outside : ThreadContexts :=
  ThreadContexts.start.after [⟨0, .make [Value.entry "sink_name" (.str "orders")]⟩,
    ⟨0, .make [Value.entry "table" (.str "t"), Value.entry "sink_name" .null]⟩,
    ⟨1, .make []⟩, ⟨0, .enter 0⟩]

/-- The first thread uses the second context, leaves it and uses it again, while another thread is
inside the third one. -/
def twice : List Step :=
  [⟨0, .enter 1⟩, ⟨1, .enter 2⟩, ⟨0, .leave 1⟩, ⟨0, .enter 1⟩, ⟨1, .leave 2⟩, ⟨0, .leave 1⟩]

theorem used_twice_nested :
    (outside.after (twice.take 5)).shown 0 = [Value.entry "table" (.str "t")] ∧
      (outside.after twice).shown 0 = outside.shown 0 := by
  have hcurrent : ∀ id ∈ outside.current 0, id < outside.all.length := by
    rintro id ⟨⟩
    decide
  have hexisting : Existing outside twice := by
    simp only [Existing, twice, atEach_cons]
    refine ⟨?_, ?_, ?_, ?_, ?_, ?_, atEach_nil⟩ <;> rintro _ _ ⟨⟩ <;> decide
  have hnested : Nested 0 twice := by
    simp only [Nested, twice, atEach_cons]
    refine ⟨?_, ?_, ?_, ?_, ?_, ?_, atEach_nil⟩ <;> rintro _ ⟨⟩ <;> rfl
  have hundisturbed : Undisturbed 0 twice := by
    simp only [Undisturbed, twice, atEach_cons]
    refine ⟨?_, ?_, ?_, ?_, ?_, ?_, atEach_nil⟩ <;> rintro _ _ ⟨⟩ <;> decide
  obtain ⟨hinside, -⟩ := contexts_nest hcurrent hexisting hnested hundisturbed
    (List.take_append_drop 5 twice).symm
  obtain ⟨-, hleft, -⟩ := contexts_nest hcurrent hexisting hnested hundisturbed
    (List.append_nil twice).symm
  exact ⟨hinside 1 rfl, hleft rfl⟩

/-! ## Contexts that are entered once more -/

/-- A context that is entered inside itself remembers itself: when it was left as often as it was
entered, it is current still, whatever was current before. -/
theorem entered_twice_stays {id : Nat} (h : id < s.all.length) (thread : Nat) :
    (s.after [⟨thread, .enter id⟩, ⟨thread, .enter id⟩, ⟨thread, .leave id⟩,
      ⟨thread, .leave id⟩]).current thread = some id := by
  have hcurrent (s : ThreadContexts) (what : ContextStep) :
      (s.apply ⟨thread, what⟩).current thread = (what.apply (s.seenBy thread)).current :=
    if_pos rfl
  simp [after, hcurrent, ContextStep.apply, Contexts.leave, Contexts.enter, seenBy,
    apply_leave_all, apply_enter_all, List.getElem?_eq_getElem h]

/-- So the steps of one thread may be nested, with as many contexts left as were entered, and yet
its events take on what they did not at first; and a thread that leaves a context may miss the one
around it, because another thread entered the same context in between. -/
theorem entered_once_more_breaks_nesting :
    let one := ThreadContexts.start.after [⟨0, .make [Value.entry "sink_name" (.str "orders")]⟩]
    let es : List Step := [⟨0, .enter 0⟩, ⟨0, .enter 0⟩, ⟨0, .leave 0⟩, ⟨0, .leave 0⟩]
    let shared : List Step := [⟨0, .enter 1⟩, ⟨1, .enter 1⟩, ⟨0, .leave 1⟩]
    (Existing one es ∧ Nested 0 es ∧ stack 0 es = [] ∧ (one.after es).shown 0 ≠ one.shown 0) ∧
      (Existing outside shared ∧ Nested 0 shared ∧ stack 0 shared = [] ∧
        (outside.after shared).shown 0 ≠ outside.shown 0) := by
  intro one es shared
  have hne : [Value.entry "sink_name" (.str "orders")] ≠ [] := List.cons_ne_nil _ _
  refine ⟨⟨?_, ?_, rfl, ?_⟩, ?_, ?_, rfl, ?_⟩
  · simp only [Existing, es, atEach_cons]
    refine ⟨?_, ?_, ?_, ?_, atEach_nil⟩ <;> rintro _ _ ⟨⟩ <;> decide
  · simp only [Nested, es, atEach_cons]
    refine ⟨?_, ?_, ?_, ?_, atEach_nil⟩ <;> rintro _ ⟨⟩ <;> rfl
  · have hmade : 0 < one.all.length := by decide
    rw [shown_of_current (entered_twice_stays hmade 0)]
    exact hne
  · simp only [Existing, shared, atEach_cons]
    refine ⟨?_, ?_, ?_, atEach_nil⟩ <;> rintro _ _ ⟨⟩ <;> decide
  · simp only [Nested, shared, atEach_cons]
    refine ⟨nofun, nofun, ?_, atEach_nil⟩
    rintro _ ⟨⟩
    rfl
  · exact hne.symm

end ThreadContexts
end Log
end StreamTable
