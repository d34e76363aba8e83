import Mathlib
import RecordStore.Proofs.Calls

/-!
# Runs

What holds after any sequence of calls from the store in which nothing is stored, and what a call
that fails leaves in such a store.
-/

namespace RecordStore.Store

variable {s : Store}

/-! ### One call -/

theorem settles_call (hs : s.Sound) (setup : Setup) (stamp : Stamp) (call : Call) :
    Changes s (s.after setup stamp call) ∧
      ∀ e, s.perform setup stamp call = .error e → s.after setup stamp call = s := by
  have hsettles := Session.settles_ofCall hs setup stamp call
  rw [after, perform]
  cases hrun : (Session.ofCall setup stamp call).run s with
  | ok answer t => exact ⟨hsettles.yields hrun, fun e h => nomatch h⟩
  | error e t =>
    have ht : t = s := hsettles.eq_of_error hrun
    subst ht
    exact ⟨.refl, fun _ _ => rfl⟩

/-! ### Sequences of calls -/

/-- A run of calls, failing ones included, makes nothing but changes of the known kinds. -/
theorem changes_run (hs : s.Sound) (steps : List Step) : Changes s (s.run steps) := by
  induction steps generalizing s with
  | nil => exact .refl
  | cons step rest ih =>
    have hst := (settles_call hs step.setup step.stamp step.call).1
    exact hst.trans (ih (hs.changes hst))

theorem Reachable.changes (h : s.Reachable) : Changes empty s := by
  obtain ⟨steps, rfl⟩ := h
  exact changes_run sound_empty steps

theorem Reachable.sound (h : s.Reachable) : s.Sound := sound_empty.changes h.changes

/-- Referential integrity: after any calls, of which any may have failed at any point, whatever a
row refers to is there. -/
theorem linked_run (steps : List Step) : (empty.run steps).Linked :=
  (sound_empty.changes (changes_run sound_empty steps)).linked

/-! ### A run to look at -/

/-- An id by the step that gives it out and its place there. -/
def exampleId (step place : UInt8) : Id := ⟨List.replicate 14 0 ++ [step, place], rfl⟩

def exampleStep (step : UInt8) (call : Call) : Step :=
  ⟨⟨50, 200, .reject, []⟩, ⟨⟨step.toNat⟩, fun place => exampleId step (UInt8.ofNat place)⟩, call⟩

/-- Creates an object of deals, a unique attribute of it, two deals that differ in that, and a list
with the first of them. -/
def exampleRun : List Step := [
  exampleStep 0 (.createObject ⟨default, "deals", "Deal", "Deals", none, false⟩),
  exampleStep 1 (.createAttribute { NewAttribute.plain (.object (exampleId 0 0)) "won" "Won"
    .checkbox with isUnique := true }),
  exampleStep 2 (.createRecord ⟨exampleId 0 0, [("won", .bool true)], none⟩),
  exampleStep 3 (.createRecord ⟨exampleId 0 0, [("won", .bool false)], none⟩),
  exampleStep 4 (.createList ⟨exampleId 0 0, "Hot", "hot", false, none⟩),
  exampleStep 5 (.addEntry ⟨exampleId 4 0, exampleId 2 0, [], none⟩)]

def exampleStore : Store where
  objects := [⟨exampleId 0 0, default, "deals", "Deal", "Deals", none, false, ⟨0⟩⟩]
  attributes := [⟨exampleId 1 0, .object (exampleId 0 0), "won", "Won", .checkbox, .obj [], false,
    false, true, false, 0, ⟨1⟩⟩]
  options := []
  statuses := []
  records := [⟨exampleId 2 0, exampleId 0 0, none, ⟨2⟩, none, ⟨2⟩⟩,
    ⟨exampleId 3 0, exampleId 0 0, none, ⟨3⟩, none, ⟨3⟩⟩]
  lists := [⟨exampleId 4 0, exampleId 0 0, "Hot", "hot", false, none, ⟨4⟩⟩]
  entries := [⟨exampleId 5 0, exampleId 4 0, exampleId 2 0, ⟨5⟩, none, ⟨5⟩⟩]
  recordValues := [⟨exampleId 2 0, exampleId 1 0, .boolean true, some "true"⟩,
    ⟨exampleId 3 0, exampleId 1 0, .boolean false, some "false"⟩]
  entryValues := []

theorem run_exampleRun : empty.run exampleRun = exampleStore := by cbv

theorem reachable_exampleStore : exampleStore.Reachable := ⟨exampleRun, run_exampleRun.symm⟩

/-- Creates a select attribute whose second option has a blank title. -/
def exampleFailure : Step :=
  exampleStep 6 (.createAttribute { NewAttribute.plain (.object (exampleId 0 0)) "stage" "Stage"
    .select with options := [⟨"Open", none⟩, ⟨" ", none⟩] })

/-! ### Failing calls -/

/-- All or nothing: a call that fails, for whatever reason, leaves all tables as they were. -/
theorem after_eq_of_perform_eq_error {setup : Setup} {stamp : Stamp} {call : Call} {e : Error}
    (h : s.Reachable) (hfail : s.perform setup stamp call = .error e) :
    s.after setup stamp call = s :=
  (settles_call h.sound setup stamp call).2 e hfail

/-- The attribute and its first option are inserted before the second option is found to be blank;
neither of them stays. -/
theorem after_eq_of_blank_option :
    exampleStore.perform exampleFailure.setup exampleFailure.stamp exampleFailure.call =
        .error (.invalid (.nameBlank .optionTitle)) ∧
      exampleStore.after exampleFailure.setup exampleFailure.stamp exampleFailure.call =
        exampleStore := by
  have hfail : exampleStore.perform exampleFailure.setup exampleFailure.stamp
      exampleFailure.call = .error (.invalid (.nameBlank .optionTitle)) := by cbv
  exact ⟨hfail, after_eq_of_perform_eq_error reachable_exampleStore hfail⟩

end RecordStore.Store
