import BtClock.Frontlight.Steps
import BtClock.Transition.Run

/-!
# The hard mute

`SetDisabled(true)` is meant to turn the panel black and keep it so.  It puts nothing on
the queue itself: black is reached through the commands which the calls made while the
mute is on put there.  A watch runs beside the controller.  It counts the commands which
were queued before the mute and are still there, notes whether an off was queued since,
and counts the turns in which the task found its queue empty.

The mute works along every run in which no call lights the panel past the gate, an off is
queued before the task runs idle, and the task takes no off while its fader stands at 0
under lit channels.
-/

namespace BtClock

namespace Frontlight

open FrontlightController

/-- The controller and what has happened since the mute was switched on. -/
structure MuteWatch where
  ctl : FrontlightController
  /-- The commands on the queue which were there when the mute was switched on. -/
  backlog : ℕ := 0
  /-- An off was put on the queue since. -/
  offQueued : Bool := false
  /-- The turns of the task since in which the queue was empty. -/
  idleTurns : ℕ := 0

namespace MuteWatch

def start (channelCount : ℕ) : MuteWatch where
  ctl := FrontlightController.start channelCount

def step (w : MuteWatch) (op : Op) : MuteWatch :=
  match op with
  | .setDisabled disabled =>
      if disabled = true ∧ w.ctl.disabled = false then
        { ctl := w.ctl.step op, backlog := w.ctl.queue.length }
      else { w with ctl := w.ctl.step op }
  | .task _ =>
      if w.ctl.queue = [] then
        { w with ctl := w.ctl.step op, idleTurns := w.idleTurns + 1 }
      else { w with ctl := w.ctl.step op, backlog := w.backlog - 1 }
  | op =>
      { w with
        ctl := w.ctl.step op
        offQueued :=
          w.offQueued || (w.ctl.puts op).any fun cmd => decide cmd.event.ForcesOff }

/-- No command is put on the queue which can raise a duty while the mute is on. -/
def NothingRaising (w : MuteWatch) (op : Op) : Prop :=
  w.ctl.disabled = true → ∀ cmd ∈ w.ctl.puts op, ¬ (w.ctl.step op).CanRaise cmd

/-- What the mute relies on, of a turn of the task.  A command from before the mute may be
any. -/
def TurnSafe (w : MuteWatch) : Prop :=
  match w.ctl.queue with
  | [] => w.offQueued = true ∨ w.ctl.Sealed
  | cmd :: _ => w.backlog = 0 → w.ctl.TakeSafe cmd

instance (w : MuteWatch) : Decidable w.TurnSafe := by
  unfold TurnSafe
  split <;> infer_instance

def Safe (w : MuteWatch) (op : Op) : Prop :=
  w.ctl.disabled = true → w.ctl.CallSafe op ∧ (op.isTask = true → w.TurnSafe)

instance (w : MuteWatch) : DecidablePred w.Safe := fun _ =>
  inferInstanceAs (Decidable (_ → _ ∧ (_ → _)))

/-- What holds while the mute is on: the commands after the backlog raise nothing, an off
is among them or has sealed the panel, and every idle turn has taken its step off the
fader. -/
structure Inv (w : MuteWatch) : Prop where
  backlog_le : w.backlog ≤ w.ctl.queue.length
  quiet : ∀ cmd ∈ w.ctl.queue.drop w.backlog,
    cmd.event.ForcesOff ∨ cmd.event = .setChannelDuties
  off : w.offQueued = true →
    (∃ cmd ∈ w.ctl.queue.drop w.backlog, cmd.event.ForcesOff) ∨
      (w.backlog = 0 ∧ w.ctl.Sealed)
  faded : 0 < w.idleTurns →
    (w.backlog = 0 ∧ w.ctl.Sealed) ∧
      w.ctl.fader.current ≤ kDefaultMaxDuty - kFadeStep * w.idleTurns

variable {w : MuteWatch}

/-- The mute is switched on: all that is queued is backlog. -/
theorem inv_of_backlog (ctl : FrontlightController) :
    Inv { ctl := ctl, backlog := ctl.queue.length } where
  backlog_le := Nat.le_refl _
  quiet := by simp
  off := by simp
  faded := by simp

/-- A call which puts only quiet commands on the queue keeps the invariant. -/
theorem Inv.sends (h : Inv w) {ctl : FrontlightController}
    (hs : Sends w.ctl ctl fun c => c.event.ForcesOff ∨ c.event = .setChannelDuties) :
    Inv { w with
      ctl := ctl
      offQueued := w.offQueued ||
        (ctl.queue.drop w.ctl.queue.length).any fun cmd => decide cmd.event.ForcesOff } := by
  obtain ⟨cmds, hqueue, hquiet⟩ := hs.queue
  have hdrop : ctl.queue.drop w.backlog = w.ctl.queue.drop w.backlog ++ cmds := by
    rw [hqueue, List.drop_append_of_le_length h.backlog_le]
  have hputs : ctl.queue.drop w.ctl.queue.length = cmds := by simp [hqueue]
  constructor
  · have hle := h.backlog_le
    rw [hqueue, List.length_append]
    exact Nat.le_add_right_of_le hle
  · intro cmd hcmd
    rw [hdrop] at hcmd
    rcases List.mem_append.mp hcmd with hcmd | hcmd
    · exact h.quiet cmd hcmd
    · exact hquiet cmd hcmd
  · intro hoff
    dsimp only at hoff ⊢
    rw [hputs, Bool.or_eq_true, List.any_eq_true] at hoff
    rw [hdrop]
    rcases hoff with hoff | ⟨cmd, hcmd, hcoff⟩
    · rcases h.off hoff with ⟨cmd, hcmd, hcoff⟩ | ⟨hb, hsealed⟩
      · exact Or.inl ⟨cmd, List.mem_append_left _ hcmd, hcoff⟩
      · exact Or.inr ⟨hb, hs.sealed hsealed⟩
    · exact Or.inl ⟨cmd, List.mem_append_right _ hcmd, of_decide_eq_true hcoff⟩
  · intro hidle
    obtain ⟨⟨hb, hsealed⟩, hcurrent⟩ := h.faded hidle
    refine ⟨⟨hb, hs.sealed hsealed⟩, ?_⟩
    rw [hs.fader]
    exact hcurrent

/-- A turn which finds the queue empty. -/
theorem Inv.idleTurn (h : Inv w) (hq : w.ctl.queue = [])
    (hsafe : w.offQueued = true ∨ w.ctl.Sealed) (msNow : ℤ) :
    Inv { w with ctl := w.ctl.taskTurn msNow, idleTurns := w.idleTurns + 1 } := by
  have hb : w.backlog = 0 := by simpa [hq] using h.backlog_le
  have hsealed : w.ctl.Sealed := by
    rcases hsafe with hoff | hs
    · rcases h.off hoff with ⟨cmd, hcmd, _⟩ | ⟨_, hs⟩
      · simp [hq] at hcmd
      · exact hs
    · exact hs
  obtain ⟨hs', hcurrent, hq'⟩ := taskTurn_sealed hq hsealed msNow
  constructor
  · simp [hb]
  · simp [hq']
  · exact fun _ => Or.inr ⟨hb, hs'⟩
  · intro _
    refine ⟨⟨hb, hs'⟩, ?_⟩
    have hmax := w.ctl.fader.current_le
    have hbound : 0 < w.idleTurns →
        w.ctl.fader.current ≤ kDefaultMaxDuty - kFadeStep * w.idleTurns :=
      fun hidle => (h.faded hidle).2
    dsimp only
    rw [hcurrent]
    unfold kFadeStep at hbound ⊢
    omega

/-- A turn which takes a command from before the mute. -/
theorem Inv.takeBacklog (h : Inv w) {cmd : FrontlightCommand}
    {queue : List FrontlightCommand} (hq : w.ctl.queue = cmd :: queue)
    (hb : w.backlog ≠ 0) (msNow : ℤ) :
    Inv { w with ctl := w.ctl.taskTurn msNow, backlog := w.backlog - 1 } := by
  obtain ⟨b, hb'⟩ := Nat.exists_eq_succ_of_ne_zero hb
  have hqueue : (w.ctl.taskTurn msNow).queue = queue := by
    rw [taskTurn_cons hq, receive_queue]
  have hdrop : w.ctl.queue.drop w.backlog = queue.drop b := by rw [hq, hb', List.drop_succ_cons]
  have hle := h.backlog_le
  constructor
  · simp only [hqueue]
    rw [hq, List.length_cons] at hle
    omega
  · simp only [hqueue, hb', Nat.succ_sub_one]
    rw [← hdrop]
    exact h.quiet
  · intro hoff
    simp only [hqueue, hb', Nat.succ_sub_one]
    rcases h.off hoff with hpending | ⟨hzero, _⟩
    · rw [← hdrop]
      exact Or.inl hpending
    · exact absurd hzero hb
  · intro hidle
    exact absurd (h.faded hidle).1.1 hb

/-- A turn which takes a command put on the queue under the mute. -/
theorem Inv.takeQuiet (h : Inv w) {cmd : FrontlightCommand}
    {queue : List FrontlightCommand} (hq : w.ctl.queue = cmd :: queue)
    (hb : w.backlog = 0) (hsafe : w.ctl.TakeSafe cmd) (msNow : ℤ) :
    Inv { w with ctl := w.ctl.taskTurn msNow, backlog := w.backlog - 1 } := by
  have hquiet := h.quiet
  rw [hb, hq, List.drop_zero] at hquiet
  have hqueue : (w.ctl.taskTurn msNow).queue = queue := by
    rw [taskTurn_cons hq, receive_queue]
  obtain ⟨hsealed, hcurrent⟩ :=
    receive_sealed (s := { w.ctl with queue := queue }) (hquiet cmd List.mem_cons_self) hsafe
  rw [← taskTurn_cons hq msNow] at hsealed hcurrent
  constructor
  · simp [hb]
  · simp only [hqueue, hb, Nat.zero_sub, List.drop_zero]
    exact fun c hc => hquiet c (List.mem_cons_of_mem _ hc)
  · exact fun _ => Or.inr ⟨by simp [hb], hsealed⟩
  · intro hidle
    exact ⟨⟨by simp [hb], hsealed⟩, Nat.le_trans hcurrent (h.faded hidle).2⟩

theorem step_of_call {op : Op} (htask : op.isTask = false)
    (hset : ∀ b, op ≠ .setDisabled b) :
    w.step op =
      { w with
        ctl := w.ctl.step op
        offQueued := w.offQueued ||
          ((w.ctl.step op).queue.drop w.ctl.queue.length).any fun cmd =>
            decide cmd.event.ForcesOff } := by
  cases op with
  | task msNow => cases htask
  | setDisabled b => exact absurd rfl (hset b)
  | _ => rfl

theorem quiet_of_not_canRaise {s : FrontlightController} {cmd : FrontlightCommand}
    (h : ¬ s.CanRaise cmd) : cmd.event.ForcesOff ∨ cmd.event = .setChannelDuties := by
  unfold CanRaise at h
  cases hc : cmd.event <;> simp_all [FrontlightEvent.ForcesOff]

theorem step_inv_of_task (hI : w.ctl.disabled = true → Inv w) {msNow : ℤ}
    (hsafe : w.Safe (.task msNow)) :
    (w.step (.task msNow)).ctl.disabled = true → Inv (w.step (.task msNow)) := by
  intro hd
  have hdis : w.ctl.disabled = true := by
    rw [← w.ctl.taskTurn_disabled msNow]
    simp only [step] at hd
    split at hd <;> exact hd
  have hturn : w.TurnSafe := (hsafe hdis).2 rfl
  unfold TurnSafe at hturn
  cases hq : w.ctl.queue with
  | nil =>
      simp only [hq] at hturn
      simp only [step, hq, if_true]
      exact (hI hdis).idleTurn hq hturn msNow
  | cons cmd queue =>
      simp only [hq] at hturn
      simp only [step, hq, List.cons_ne_nil, if_false]
      by_cases hb : w.backlog = 0
      · exact (hI hdis).takeQuiet hq hb (hturn hb) msNow
      · exact (hI hdis).takeBacklog hq hb msNow

theorem step_inv_of_setDisabled (hI : w.ctl.disabled = true → Inv w) {b : Bool} :
    (w.step (.setDisabled b)).ctl.disabled = true → Inv (w.step (.setDisabled b)) := by
  intro hd
  by_cases hon : b = true ∧ w.ctl.disabled = false
  · rw [step, if_pos hon]
    exact inv_of_backlog (w.ctl.step (.setDisabled b))
  · rw [step, if_neg hon] at hd ⊢
    have hb : b = true := hd
    have hdis : w.ctl.disabled = true := by simpa [hb] using hon
    have hsame : w.ctl.step (.setDisabled b) = w.ctl := by
      simp only [FrontlightController.step, hb, ← hdis]
    rw [hsame]
    exact hI hdis

/-- A safe step keeps the invariant of the mute. -/
theorem step_inv {op : Op} (hI : w.ctl.disabled = true → Inv w) (hsafe : w.Safe op) :
    (w.step op).ctl.disabled = true → Inv (w.step op) := by
  by_cases hset : ∃ b, op = .setDisabled b
  · obtain ⟨b, rfl⟩ := hset
    exact step_inv_of_setDisabled hI
  · cases htask : op.isTask with
    | true =>
        cases op with
        | task msNow => exact step_inv_of_task hI hsafe
        | _ => cases htask
    | false =>
        intro hd
        have hset' : ∀ b, op ≠ .setDisabled b := fun b hb => hset ⟨b, hb⟩
        rw [step_of_call htask hset'] at hd ⊢
        have hdis : w.ctl.disabled = true := (w.ctl.step_disabled hset').symm.trans hd
        have hsends := step_sends_of_disabled hdis htask (hsafe hdis).1
        exact (hI hdis).sends (hsends.mono fun cmd hc => quiet_of_not_canRaise hc)

theorem nothingRaising_of_safe {op : Op} (hsafe : w.Safe op) : w.NothingRaising op := by
  intro hd cmd hcmd
  cases htask : op.isTask with
  | true =>
      cases op with
      | task msNow => cases hcmd
      | _ => cases htask
  | false =>
      obtain ⟨cmds, hqueue, hraise⟩ := (step_sends_of_disabled hd htask (hsafe hd).1).queue
      have hputs : w.ctl.puts op = cmds := by
        cases op with
        | task msNow => cases htask
        | _ => simp [puts, hqueue]
      rw [hputs] at hcmd
      exact hraise cmd hcmd

/-- While no call switches the mute off it stays on, and no idle turn is forgotten. -/
theorem run_of_disabled {ops : List Op} (hops : ∀ op ∈ ops, op ≠ .setDisabled false)
    (hd : w.ctl.disabled = true) :
    (Transition.run step w ops).ctl.disabled = true ∧
      w.idleTurns ≤ (Transition.run step w ops).idleTurns := by
  induction ops generalizing w with
  | nil => exact ⟨hd, Nat.le_refl _⟩
  | cons op ops ih =>
      have hstep : (w.step op).ctl.disabled = true ∧ w.idleTurns ≤ (w.step op).idleTurns := by
        by_cases hset : ∃ b, op = .setDisabled b
        · obtain ⟨b, rfl⟩ := hset
          cases b with
          | false => exact absurd rfl (hops _ List.mem_cons_self)
          | true =>
              rw [step, if_neg (by simp [hd])]
              exact ⟨rfl, Nat.le_refl _⟩
        · have hset' : ∀ b, op ≠ .setDisabled b := fun b hb => hset ⟨b, hb⟩
          have hd' := (w.ctl.step_disabled hset').trans hd
          cases op with
          | setDisabled b => exact absurd rfl (hset' b)
          | task msNow =>
              rw [step]
              split
              · exact ⟨hd', Nat.le_succ _⟩
              · exact ⟨hd', Nat.le_refl _⟩
          | _ => exact ⟨hd', Nat.le_refl _⟩
      obtain ⟨hd', hle⟩ := ih (fun op' hop' => hops op' (List.mem_cons_of_mem _ hop')) hstep.1
      exact ⟨hd', Nat.le_trans hstep.2 hle⟩

/-- The turns which a fade from the maximum to 0 takes. -/
def kFadeOutTurns : ℕ :=
  (kDefaultMaxDuty + kFadeStep - 1) / kFadeStep

/-- After a fade's worth of idle turns the panel is dark. -/
theorem Inv.dark (h : Inv w) (hidle : kFadeOutTurns ≤ w.idleTurns) : w.ctl.Dark := by
  unfold kFadeOutTurns kDefaultMaxDuty kFadeStep at hidle
  obtain ⟨⟨_, hsealed⟩, hcurrent⟩ := h.faded (by omega)
  apply hsealed.dark
  unfold kDefaultMaxDuty kFadeStep at hcurrent
  omega

/-- The hard mute of a run from boot: under the mute nothing which can raise a duty is
queued, and when the task has found its queue empty for a fade's worth of turns, every
channel is at 0 and stays there until the mute is switched off. -/
def HardMute (channelCount : ℕ) (ops : List Op) : Prop :=
  Transition.Along step NothingRaising (start channelCount) ops ∧
    ∀ pre post, ops = pre ++ post →
      (Transition.run step (start channelCount) pre).ctl.disabled = true →
      kFadeOutTurns ≤ (Transition.run step (start channelCount) pre).idleTurns →
      (∀ op ∈ post, op ≠ .setDisabled false) →
      (Transition.run step (start channelCount) ops).ctl.Dark

/-- The mute holds along every run whose steps are safe. -/
theorem hardMute_of_along_safe (channelCount : ℕ) (ops : List Op)
    (h : Transition.Along step Safe (start channelCount) ops) :
    HardMute channelCount ops := by
  refine ⟨h.mono fun w op hsafe => nothingRaising_of_safe hsafe, ?_⟩
  intro pre post hops hd hidle hpost
  have hinv : (Transition.run step (start channelCount) ops).ctl.disabled = true →
      Inv (Transition.run step (start channelCount) ops) := by
    apply h.invariant (fun w op => step_inv)
    intro hd
    cases hd
  rw [hops, Transition.run_append] at hinv ⊢
  obtain ⟨hd', hle⟩ := run_of_disabled hpost hd
  exact (hinv hd').dark (Nat.le_trans hidle hle)

/-- The panel is on its way up when the mute comes, and the next brightness change is what
turns it off. -/
def mutedRun : List Op :=
  [.post { event := .on } false, .task 0, .task 15, .task 30, .setDisabled true,
    .setConfiguredBrightness 900 false, .task 45] ++ List.replicate kFadeOutTurns (.task 60)

theorem hardMute_mutedRun :
    (Transition.run step (start 2) (mutedRun.take 5)).ctl.channels = [50, 50] ∧
      HardMute 2 mutedRun :=
  ⟨by decide, hardMute_of_along_safe 2 mutedRun (by decide)⟩

/-- A manual write goes past the mute: the channels it lights stay lit. -/
theorem not_hardMute_setChannelDuties :
    ¬ HardMute 2 ([.setDisabled true, .setChannelDuties [2048, 0], .task 0] ++
      List.replicate kFadeOutTurns (.task 15)) := by
  intro h
  have hdark := h.2 _ [] (List.append_nil _).symm (by decide +kernel) (by decide +kernel)
    (by simp)
  revert hdark
  decide +kernel

end MuteWatch

end Frontlight

end BtClock
