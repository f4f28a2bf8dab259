import Panadapter.Proofs.Stream.Attempts

/-!
# The switch of a stream

Two parties write the switch of a stream: the operator, who switches the stream on and off, and the worker, which
switches it off after every failed attempt. The switch does not remember who wrote it, so the last write counts.

* A failed attempt is followed by one switching off (`LiveStream.failures_next`, `Chronicle.failures_recordAll`), which
  is all that the worker does to the switch (`LiveStream.enabled_next`).
* So an enabling lasts until the worker looks exactly if it comes after the switching off of every failed attempt
  (`enabled_at_test_iff`).
-/

namespace Panadapter

namespace Position

/-- Whether the attempt has failed and its worker has yet to switch the stream off. -/
def owesSwitchOff : Position → Bool
  | closingRefused _ | countingFailure _ | keepingReason _ | switchingOff => true
  | _ => false

/-- Whether an attempt is under way which has not come to acquiring. -/
def isAttempting : Position → Bool
  | clearing | opening | starting _ | closingRefused _ | countingFailure _ | keepingReason _ | switchingOff => true
  | _ => false

/-- Whether the next step looks whether the stream is switched on, for another attempt. -/
def testsSwitch : Position → Bool
  | testingEnabled => true
  | _ => false

/-- A worker that is about to look owes nothing. -/
theorem owesSwitchOff_of_testsSwitch {p : Position} (tests : p.testsSwitch = true) : p.owesSwitchOff = false := by
  cases p with
  | testingEnabled => rfl
  | _ => cases tests

end Position

/-- Whether an event is the operator's hand on the switch. -/
def StreamEvent.isSwitch : StreamEvent → Bool
  | enable | disable => true
  | _ => false

namespace LiveStream

/-- Whether an event is the step by which the worker switches its stream off. -/
def switchesOff (x : LiveStream) : StreamEvent → Bool
  | .work _ =>
    match x.worker.position with
    | .switchingOff => true
    | _ => false
  | _ => false

/-- The switch after an event: where the operator puts it, or as it was unless the worker switches the stream off. -/
theorem enabled_next (x : LiveStream) (e : StreamEvent) : (x.next e).stream.control.enabled =
    match e with
    | .enable => true
    | .disable => false
    | e => x.stream.control.enabled && !x.switchesOff e := by
  obtain ⟨⟨source, layout, position⟩, ⟨⟨name, enabled, state, stats, lastError⟩, queue⟩, shutdown⟩ := x
  have stays : enabled = (enabled && !false) := (Bool.and_true enabled).symm
  cases e with
  | enable => rfl
  | disable => rfl
  | drain n policy out => exact stays
  | shutDown => exact stays
  | work answers =>
    obtain ⟨opened, started, polled⟩ := answers
    cases position with
    | switchingOff => exact (Bool.and_false enabled).symm
    | opening => cases opened <;> exact stays
    | starting device => cases started <;> exact stays
    | polling device => cases polled <;> exact stays
    | settling => cases state <;> exact stays
    | _ => exact stays

/-- An event that fails an attempt leaves a switching off to be done, and the worker's switching off does it. -/
theorem failures_next (x : LiveStream) (e : StreamEvent) :
    ((x.deed? e).toList.filterMap Deed.failure?).length + x.worker.position.owesSwitchOff.toNat
      = (x.next e).worker.position.owesSwitchOff.toNat + (x.switchesOff e).toNat := by
  obtain ⟨⟨source, layout, position⟩, ⟨⟨name, enabled, state, stats, lastError⟩, queue⟩, shutdown⟩ := x
  cases e with
  | work answers =>
    obtain ⟨opened, started, polled⟩ := answers
    cases position with
    | opening => cases opened <;> rfl
    | starting device => cases started <;> rfl
    | polling device => cases polled <;> rfl
    | testingShutdown => cases shutdown <;> rfl
    | testingEnabled => cases enabled <;> rfl
    | checkingEnabled device => cases enabled <;> rfl
    | checkingShutdown device => cases shutdown <;> rfl
    | leaving device => cases shutdown <;> rfl
    | _ => rfl
  | drain n policy out =>
    have silent : (LiveStream.deed? ⟨⟨source, layout, position⟩, ⟨⟨name, enabled, state, stats, lastError⟩, queue⟩,
        shutdown⟩ (.drain n policy out)).toList.filterMap Deed.failure? = [] := by
      cases done : LiveStream.deed? _ (.drain n policy out) with
      | none => rfl
      | some d =>
        obtain ⟨window, gone, rfl⟩ := drained_of_deed? done
        rfl
    rw [silent]
    exact Nat.zero_add _
  | _ => exact Nat.zero_add _

end LiveStream

/-! ## Runs -/

namespace Chronicle

/-- How often the worker switches its stream off while a run goes on through events. -/
def switchOffs (r : Chronicle) : List StreamEvent → Nat
  | [] => 0
  | e :: rest => (r.live.switchesOff e).toNat + (r.record e).switchOffs rest

variable {r : Chronicle}

/-- Every attempt that fails is followed by one switching off, but for the last one, which may still be to come. -/
theorem failures_recordAll (events : List StreamEvent) :
    (r.recordAll events).failures.length + r.live.worker.position.owesSwitchOff.toNat
      = r.failures.length + (r.recordAll events).live.worker.position.owesSwitchOff.toNat + r.switchOffs events := by
  induction events generalizing r with
  | nil => rfl
  | cons e rest ih =>
    have later := ih (r := r.record e)
    have first := r.live.failures_next e
    have more := congrArg List.length (r.failures_record e)
    have position : (r.record e).live = r.live.next e := rfl
    rw [List.length_append] at more
    rw [position] at later
    rw [recordAll_cons, switchOffs]
    omega

/-- Failures are only ever added. -/
theorem failures_prefix_recordAll (events : List StreamEvent) : r.failures <+: (r.recordAll events).failures := by
  obtain ⟨later, deeds⟩ := r.deeds_recordAll events
  refine ⟨later.filterMap Deed.failure?, ?_⟩
  rw [failures, failures, deeds, List.filterMap_append]

/-- A stream that is switched on stays so while nobody switches it off. -/
theorem enabled_recordAll_of_on {events : List StreamEvent} (on : r.live.stream.control.enabled = true)
    (kept : .disable ∉ events) (none : r.switchOffs events = 0) :
    (r.recordAll events).live.stream.control.enabled = true := by
  induction events generalizing r with
  | nil => exact on
  | cons e rest ih =>
    rw [switchOffs] at none
    have first := r.live.enabled_next e
    have other : r.live.switchesOff e = false := by
      cases off : r.live.switchesOff e with
      | false => rfl
      | true => rw [off, Bool.toNat_true] at none; omega
    refine ih (r := r.record e) ?_ (fun mem => kept (List.mem_cons_of_mem _ mem)) (by omega)
    show (r.live.next e).stream.control.enabled = true
    rw [first]
    cases e with
    | enable => rfl
    | disable => exact absurd List.mem_cons_self kept
    | _ => simp [on, other]

/-- Between two touches of the operator the switch is as he left it, unless the worker switches the stream off. -/
theorem enabled_recordAll {events : List StreamEvent} (untouched : ∀ e ∈ events, e.isSwitch = false) :
    (r.recordAll events).live.stream.control.enabled
      = (r.live.stream.control.enabled && decide (r.switchOffs events = 0)) := by
  induction events generalizing r with
  | nil => simp [switchOffs]
  | cons e rest ih =>
    have first : (r.record e).live.stream.control.enabled
        = (r.live.stream.control.enabled && !r.live.switchesOff e) := by
      have next := r.live.enabled_next e
      have other := untouched e List.mem_cons_self
      cases e with
      | enable | disable => cases other
      | _ => exact next
    rw [recordAll_cons, ih fun e' mem => untouched e' (List.mem_cons_of_mem _ mem), first, switchOffs]
    cases r.live.switchesOff e with
    | false => simp
    | true => simp

end Chronicle

/-! ## Switching a stream on -/

/-- A run in which the operator switches a stream on: what happens before, and what happens from then on until its
worker looks. -/
structure SwitchingOn where
  source : String
  layout : Demux
  name : String
  enabled : Bool
  capacity : Nat
  before : List StreamEvent
  after : List StreamEvent

namespace SwitchingOn

variable (r : SwitchingOn)

/-- The run until the operator switches the stream on. -/
def beforeEnable : Chronicle :=
  (Chronicle.ofLive (.ofName r.source r.layout r.name r.enabled r.capacity)).recordAll r.before

/-- The run until the stream has been switched on. -/
def atEnable : Chronicle := r.beforeEnable.record .enable

/-- The run after some more events. -/
def moment (k : Nat) : Chronicle := r.atEnable.recordAll (r.after.take k)

/-- The run at its end. -/
def atTest : Chronicle := r.atEnable.recordAll r.after

/-- Whether the worker looks at the end, for the first time since the stream was switched on. -/
structure IsNextTest : Prop where
  tests : r.atTest.live.worker.position.testsSwitch = true
  first : ∀ k < r.after.length, (r.moment k).live.worker.position.testsSwitch = false

variable {r}

/-- Between the enabling and a look of the worker, the worker switches the stream off exactly if it still owed that, or
another attempt has failed. -/
theorem switchOffs_eq_zero_iff (tests : r.atTest.live.worker.position.testsSwitch = true) :
    r.atEnable.switchOffs r.after = 0
      ↔ r.atEnable.live.worker.position.owesSwitchOff = false ∧ r.atTest.failures = r.atEnable.failures := by
  have balance := r.atEnable.failures_recordAll r.after
  have settled := Position.owesSwitchOff_of_testsSwitch tests
  have added := r.atEnable.failures_prefix_recordAll r.after
  have same : (r.atEnable.recordAll r.after).failures = r.atEnable.failures
      ↔ (r.atEnable.recordAll r.after).failures.length = r.atEnable.failures.length :=
    ⟨congrArg List.length, fun length => (added.eq_of_length length.symm).symm⟩
  have longer := added.length_le
  rw [atTest] at settled ⊢
  rw [settled, Bool.toNat_false] at balance
  rw [same]
  cases owes : r.atEnable.live.worker.position.owesSwitchOff with
  | false =>
    rw [owes, Bool.toNat_false] at balance
    rw [and_iff_right rfl]
    omega
  | true =>
    rw [owes, Bool.toNat_true] at balance
    simp only [Bool.true_eq_false, false_and, iff_false]
    omega

end SwitchingOn

/-- **How long an enabling lasts.** When the worker looks, a stream that the operator has switched on, and not off
since, is on if at that time no failed attempt was left to be followed by a switching off, and none has failed since.
Unless the operator has switched it on once more, that is the only case. -/
theorem enabled_at_test_iff (r : SwitchingOn) (tests : r.atTest.live.worker.position.testsSwitch = true)
    (kept : .disable ∉ r.after) :
    (r.atEnable.live.worker.position.owesSwitchOff = false → r.atTest.failures = r.atEnable.failures →
        r.atTest.live.stream.control.enabled = true)
      ∧ (.enable ∉ r.after → (r.atTest.live.stream.control.enabled = true ↔
        r.atEnable.live.worker.position.owesSwitchOff = false ∧ r.atTest.failures = r.atEnable.failures)) := by
  have on : r.atEnable.live.stream.control.enabled = true := rfl
  have silent := SwitchingOn.switchOffs_eq_zero_iff tests
  constructor
  · intro owesNot alike
    exact Chronicle.enabled_recordAll_of_on on kept (silent.2 ⟨owesNot, alike⟩)
  · intro once
    have untouched : ∀ e ∈ r.after, e.isSwitch = false := by
      intro e mem
      cases e with
      | enable => exact absurd mem once
      | disable => exact absurd mem kept
      | _ => rfl
    rw [SwitchingOn.atTest, Chronicle.enabled_recordAll untouched, on, Bool.true_and, decide_eq_true_iff]
    exact silent

/-! ## A source that is refused -/

namespace SwitchingOn

/-- A source that cannot be opened. -/
def refusing (reason : DeviceError) : Answers := ⟨.error reason, .ok (), none⟩

/-- A stream whose source is refused, switched on once more when its worker has made some steps, until the worker looks
again. -/
def afterSteps (steps : Nat) (reason : DeviceError) : SwitchingOn where
  source := "custom transport"
  layout := .ofStride 2 1
  name := "s"
  enabled := true
  capacity := 8
  before := List.replicate steps (.work (refusing reason))
  after := List.replicate (10 - steps) (.work (refusing reason))

end SwitchingOn

theorem enabled_at_test_after_refusal :
    (SwitchingOn.afterSteps 8 (.io "no device")).atTest.live.worker.position.testsSwitch = true
      ∧ .disable ∉ (SwitchingOn.afterSteps 8 (.io "no device")).after
      ∧ (SwitchingOn.afterSteps 8 (.io "no device")).atTest.live.stream.control.enabled = true := by
  have kept : .disable ∉ (SwitchingOn.afterSteps 8 (.io "no device")).after := by simp [SwitchingOn.afterSteps]
  exact ⟨rfl, kept, (enabled_at_test_iff (.afterSteps 8 (.io "no device")) rfl kept).1 rfl rfl⟩

/-- So a failed attempt takes along an enabling that came while it was under way, even one that came after the failure
had been logged and counted and its reason could be read. -/
theorem not_forall_enabled_at_test : ¬∀ r : SwitchingOn, r.beforeEnable.live.worker.position.isAttempting = true →
    .disable ∉ r.after → .shutDown ∉ r.before ++ r.after → r.IsNextTest →
    r.atTest.live.stream.control.enabled = true := by
  intro always
  have next : (SwitchingOn.afterSteps 7 (.io "no device")).IsNextTest := ⟨rfl, by decide⟩
  have on := always (.afterSteps 7 (.io "no device")) rfl (by simp [SwitchingOn.afterSteps])
    (by simp [SwitchingOn.afterSteps]) next
  cases on

end Panadapter
