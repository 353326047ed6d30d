import DoorAccess.Proofs.Console.Steps
import DoorAccess.Reader.Service
import Mathlib.Data.List.TakeDrop
import Mathlib.Data.List.TakeWhile

/-!
What a reader is answered. A frame is a request if something stands on both sides of its first
colon; everything else is malformed.
-/
namespace DoorAccess.Reader

/-- A frame without a colon, or with the first one at an edge. -/
inductive IsMalformed (frame : String) : Prop
  | noColon (none : ':' ∉ frame.toList)
  | edge (before after : List Char) (cut : frame.toList = before ++ ':' :: after)
      (first : ':' ∉ before) (empty : before = [] ∨ after = [])

/-- What a frame has to be answered and what has to be recorded of it, by an engine as it is when
the frame is handled. -/
inductive Answer (e : Engine) (frame : String) : String → List Audit.Event → Prop
  | decision (door credential : String)
      (cut : frame.toList = door.toList ++ ':' :: credential.toList)
      (first : ':' ∉ door.toList) (both : door ≠ "" ∧ credential ≠ "") :
      Answer e frame (e.authorize door credential).decision.reply
        [.ofDecision (e.authorize door credential) credential]
  | malformed (malformed : IsMalformed frame) :
      Answer e frame AccessError.malformedRequest.message []

section Cut
variable {before : List Char}

theorem forall_ne_colon (clean : ':' ∉ before) : ∀ c ∈ before, decide (c ≠ ':') = true :=
  fun _ here => decide_eq_true fun same => clean (same ▸ here)

theorem span_of_clean (clean : ':' ∉ before) : before.span (· ≠ ':') = (before, []) := by
  rw [List.span_eq_takeWhile_dropWhile, List.takeWhile_eq_self_iff.mpr (forall_ne_colon clean),
    List.dropWhile_eq_nil_iff.mpr (forall_ne_colon clean)]

theorem span_cut (clean : ':' ∉ before) (after : List Char) :
    (before ++ ':' :: after).span (· ≠ ':') = (before, ':' :: after) := by
  rw [List.span_eq_takeWhile_dropWhile, List.takeWhile_append_of_pos (forall_ne_colon clean),
    List.dropWhile_append_of_pos (forall_ne_colon clean)]
  simp

end Cut

theorem not_isMalformed_of_cut {frame : String} {before after : List Char}
    (cut : frame.toList = before ++ ':' :: after) (first : ':' ∉ before)
    (both : before ≠ [] ∧ after ≠ []) : ¬ IsMalformed frame := by
  intro malformed
  cases malformed with
  | noColon none => exact none (by simp [cut])
  | edge before' after' cut' first' empty =>
      have same := congrArg (List.span (· ≠ ':')) (cut.symm.trans cut')
      rw [span_cut first, span_cut first'] at same
      cases same
      exact empty.elim both.1 both.2

/-- What serving a frame comes to. -/
structure Serves (frame : String) (now : Audit.Moment) (c : Controller) (step : Step) : Prop where
  answer : Answer c.engine frame step.reply step.events
  flow : step.flow = .close ↔ IsMalformed frame
  controller : step.controller = c.recordAll now step.events

theorem serves_of_malformed {frame : String} (malformed : IsMalformed frame) (now : Audit.Moment)
    (c : Controller) :
    Serves frame now c ⟨AccessError.malformedRequest.message, .close, [], c⟩ where
  answer := .malformed malformed
  flow := ⟨fun _ => malformed, fun _ => rfl⟩
  controller := rfl

theorem receive_serves (frame : String) (now : Audit.Moment) (c : Controller) :
    Serves frame now c (receive frame now c) := by
  by_cases colon : ':' ∈ frame.toList
  · obtain ⟨before, after, cut, first⟩ := List.eq_append_cons_of_mem colon
    rw [receive, Request.parse, cut, span_cut first]
    cases before with
    | nil => exact serves_of_malformed (.edge [] after cut first (.inl rfl)) now c
    | cons b bs =>
        cases after with
        | nil => exact serves_of_malformed (.edge (b :: bs) [] cut first (.inr rfl)) now c
        | cons a as =>
            have sound := not_isMalformed_of_cut cut first ⟨nofun, nofun⟩
            refine ⟨.decision (String.ofList (b :: bs)) (String.ofList (a :: as)) ?_ ?_ ?_,
              ⟨nofun, fun malformed => absurd malformed sound⟩, rfl⟩
            · simpa using cut
            · simpa using first
            · constructor <;> simp [String.ofList_eq_empty_iff]
  · have malformed : IsMalformed frame := .noColon colon
    rw [receive, Request.parse, span_of_clean colon]
    cases frame.toList <;> exact serves_of_malformed malformed now c

/-- A request is answered as it is decided. -/
theorem receive_request {door credential : String} (clean : ':' ∉ door.toList)
    (both : door ≠ "" ∧ credential ≠ "") (now : Audit.Moment) (c : Controller) :
    let events := [Audit.Event.ofDecision (c.engine.authorize door credential) credential]
    receive (door ++ ":" ++ credential) now c =
      ⟨(c.engine.authorize door credential).decision.reply, .stay, events,
        c.recordAll now events⟩ := by
  have cut : (door ++ ":" ++ credential).toList = door.toList ++ ':' :: credential.toList := by
    simp
  have parsed : Request.parse (door ++ ":" ++ credential) = .ok ⟨door, credential⟩ := by
    rw [Request.parse, cut, span_cut clean]
    obtain ⟨d, ds, first⟩ := List.exists_cons_of_ne_nil (String.toList_eq_nil_iff.not.mpr both.1)
    obtain ⟨e, es, second⟩ := List.exists_cons_of_ne_nil (String.toList_eq_nil_iff.not.mpr both.2)
    simp only [first, second]
    rw [← first, ← second, String.ofList_toList, String.ofList_toList]
  rw [receive, parsed]

theorem receive_engine (frame : String) (now : Audit.Moment) (c : Controller) :
    (receive frame now c).controller.engine = c.engine := by
  rw [(receive_serves frame now c).controller, Controller.recordAll_engine]

/-- To the audit trail and to the rest of what is shared a reader's answer is indifferent. -/
theorem receive_congr {c c' : Controller} (same : c'.engine = c.engine) (frame : String)
    (now : Audit.Moment) :
    (receive frame now c').reply = (receive frame now c).reply ∧
      (receive frame now c').flow = (receive frame now c).flow ∧
      (receive frame now c').events = (receive frame now c).events := by
  rw [receive, receive]
  split
  · exact ⟨rfl, rfl, rfl⟩
  · rw [same]
    exact ⟨rfl, rfl, rfl⟩

end DoorAccess.Reader
