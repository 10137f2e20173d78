import BtClock.Transition.Emit
import BtClock.Transition.Ownership
import BtClock.Webserver.UploadFirmware

/-!
# Updates of the firmware, interleaved

The worker of the web server streams the uploads and starts the tasks of the automatic updates.
The update which runs holds the flag of the manager.  What the other functions give is part of
each step.
-/

namespace BtClock

namespace Webserver

open Reading Settings Auth Nostr Ota Transition

/-- An upload as far as it was streamed. -/
structure PushUpload where
  expectedBytes : ℕ
  expectedSha256Hex : Option (List Char)
  written : ℕ := 0
  md : Sha256Ctx := sha256Init

/-- `cap` of the loop of `WritePushImageImpl`. -/
def PushUpload.cap (up : PushUpload) (part : Partition) : ℕ :=
  if 0 < up.expectedBytes then up.expectedBytes else part.size

/-- Where the worker of the web server stands. -/
inductive Worker
  | idle
  /-- `TriggerAutoUpdate` behind the exchange -/
  | spawning
  /-- `WritePushImage` behind the exchange -/
  | claimed (up : PushUpload)
  | writing (part : Partition) (up : PushUpload)
  | streamed (part : Partition) (up : PushUpload)
  /-- behind `esp_ota_end` -/
  | ended (part : Partition)
  /-- at the end of `WritePushImage` -/
  | releasing (ok : Bool)
  | blinking
  | scheduling

/-- Where `RunAutoUpdate` stands. -/
inductive AutoTask
  | starting
  /-- the checksum is known -/
  | resolved
  | performing (part : Partition)
  | verifying (part : Partition)
  | finishing (part : Partition)
  | releasing
  /-- behind `esp_https_ota_finish` -/
  | rebooting
  | deleted

/-- The device between two boots; `installed` is what was made the boot partition. -/
structure Updates where
  isUpdating : Bool := false
  worker : Worker := .idle
  tasks : List AutoTask := []
  timers : ℕ := 0
  installed : Option Partition := none
  rebooted : Bool := false

inductive FlashEvent
  | written (part : Partition)
  | switched (part : Partition)
  deriving DecidableEq

/-- What `esp_https_ota_perform` gives. -/
inductive Perform
  | inProgress
  | failed
  /-- and whether `esp_https_ota_is_complete_data_received` -/
  | ended (complete : Bool)

/-- The steps of the worker, with what the called functions give. -/
inductive WorkerAct
  | uploadFirmware (prefs : Prefs) (req : HttpRequest)
  /-- and whether there are a URL and an asset -/
  | autoUpdate (prefs : Prefs) (req : HttpRequest) (configured : Bool)
  | spawn (created : Bool)
  | push (rc : EspErr) (heap : Heap)
  | recv (r : Read UInt8 ℤ) (rc : EspErr)
  | finish (rc : EspErr)
  | activate (rc : EspErr)
  | release
  | blinked
  | schedule (created : Bool)

/-- The steps of a task. -/
inductive TaskAct
  | resolve (ok : Bool)
  | start (rc : EspErr)
  | perform (result : Perform)
  | verify (ok : Bool)
  | finish (rc : EspErr)
  | release
  | restart

inductive UpdateAct
  | worker (a : WorkerAct)
  | task (i : ℕ) (a : TaskAct)
  | timer

/-! ### Who holds the flag -/

def Worker.Holds : Worker → Prop
  | .idle | .blinking | .scheduling => False
  | _ => True

/-- With an open handle. -/
def Worker.Writes : Worker → Prop
  | .writing .. | .streamed .. => True
  | _ => False

def AutoTask.Holds : AutoTask → Prop
  | .deleted => False
  | _ => True

def AutoTask.Writes : AutoTask → Prop
  | .performing _ | .verifying _ | .finishing _ => True
  | _ => False

/-- The holder has made its image the boot partition. -/
def Worker.Done : Worker → Prop
  | .releasing true => True
  | _ => False

def AutoTask.Done : AutoTask → Prop
  | .rebooting => True
  | _ => False

namespace Updates

def setWorker (s : Updates) (w : Worker) : Updates :=
  { s with worker := w }

def setTask (s : Updates) (i : ℕ) (t : AutoTask) : Updates :=
  { s with tasks := s.tasks.set i t }

section Step

variable (next : Option Partition) (keyValue : QueryKeyValue)

/-- The checks of `HandleUploadFirmware` before the image is streamed. -/
def uploadAllowed (prefs : Prefs) (req : HttpRequest) : Bool :=
  requireHttpAuth prefs req.authorization && requireOtaEnabled prefs &&
    next.any fun part => isValidFirmwareUploadSize req.contentLen part.size

/-- The checks of `HandleFirmwareAutoUpdate` and `TriggerAutoUpdate` before the exchange. -/
def autoAllowed (prefs : Prefs) (req : HttpRequest) (configured : Bool) : Bool :=
  requireHttpAuth prefs req.authorization && requireOtaEnabled prefs && configured

/-- Behind the exchange: `esp_ota_get_next_update_partition`, `esp_ota_begin` and the
allocations; a handle is aborted when they fail. -/
def pushBegin (s : Updates) (up : PushUpload) (rc : EspErr) (heap : Heap) : Updates :=
  match next with
  | none => s.setWorker (.releasing false)
  | some part =>
      if part.size < up.expectedBytes then s.setWorker (.releasing false)
      else if rc ≠ espOk then s.setWorker (.releasing false)
      else if !heap.md || !heap.buf then s.setWorker (.releasing false)
      else s.setWorker (.writing part up)

/-- One turn of the loop of `WritePushImageImpl`. -/
def pushRecv (s : Updates) (part : Partition) (up : PushUpload) (r : Read UInt8 ℤ) (rc : EspErr) :
    Updates × List FlashEvent :=
  if up.written < up.cap part then
    match (recv (min kChunk (up.cap part - up.written)) [r]).1 with
    | .failed _ => (s.setWorker (.releasing false), [])
    | .got [] =>
        if up.expectedBytes = 0 then (s.setWorker (.streamed part up), [])
        else (s.setWorker (.releasing false), [])
    | .got (b :: bs) =>
        let up' := { up with
          written := up.written + (b :: bs).length
          md := sha256Update up.md (b :: bs) }
        if rc ≠ espOk then (s.setWorker (.releasing false), [.written part])
        else (s.setWorker (.writing part up'), [.written part])
  else (s.setWorker (.streamed part up), [])

/-- The length, the digest and `esp_ota_end`. -/
def pushFinish (s : Updates) (part : Partition) (up : PushUpload) (rc : EspErr) : Updates :=
  if 0 < up.expectedBytes ∧ up.written ≠ up.expectedBytes then s.setWorker (.releasing false)
  else if digestAccepted up.expectedSha256Hex (sha256Final up.md) then
    if rc ≠ espOk then s.setWorker (.releasing false) else s.setWorker (.ended part)
  else s.setWorker (.releasing false)

def stepWorker (s : Updates) (a : WorkerAct) : Updates × List FlashEvent :=
  match s.worker, a with
  | .idle, .uploadFirmware prefs req =>
      if uploadAllowed next prefs req && !s.isUpdating then
        ({ s with
          isUpdating := true
          worker := .claimed
            { expectedBytes := req.contentLen
              expectedSha256Hex := uploadDigest keyValue req } }, [])
      else (s, [])
  | .idle, .autoUpdate prefs req configured =>
      if autoAllowed prefs req configured && !s.isUpdating then
        ({ s with isUpdating := true, worker := .spawning }, [])
      else (s, [])
  | .spawning, .spawn true =>
      ({ s with worker := .idle, tasks := s.tasks ++ [.starting] }, [])
  | .spawning, .spawn false => ({ s with isUpdating := false, worker := .idle }, [])
  | .claimed up, .push rc heap => (s.pushBegin next up rc heap, [])
  | .writing part up, .recv r rc => s.pushRecv part up r rc
  | .streamed part up, .finish rc => (s.pushFinish part up rc, [])
  | .ended part, .activate rc =>
      if rc ≠ espOk then (s.setWorker (.releasing false), [])
      else ({ s with worker := .releasing true, installed := some part }, [.switched part])
  | .releasing ok, .release =>
      ({ s with isUpdating := false, worker := if ok then .blinking else .idle }, [])
  | .blinking, .blinked => (s.setWorker .scheduling, [])
  | .scheduling, .schedule true => ({ s with worker := .idle, timers := s.timers + 1 }, [])
  | .scheduling, .schedule false => ({ s with worker := .idle, rebooted := true }, [])
  | _, _ => (s, [])

def stepTask (s : Updates) (i : ℕ) (a : TaskAct) : Updates × List FlashEvent :=
  match s.tasks[i]?, a with
  | some .starting, .resolve ok => (s.setTask i (if ok then .resolved else .releasing), [])
  | some .resolved, .start rc =>
      match next with
      | none => (s.setTask i .releasing, [])
      | some part =>
          (s.setTask i (if rc ≠ espOk then .releasing else .performing part), [])
  | some (.performing part), .perform .inProgress => (s, [.written part])
  | some (.performing part), .perform .failed => (s.setTask i .releasing, [.written part])
  | some (.performing part), .perform (.ended complete) =>
      (s.setTask i (if complete then .verifying part else .releasing), [.written part])
  | some (.verifying part), .verify ok =>
      (s.setTask i (if ok then .finishing part else .releasing), [])
  | some (.finishing part), .finish rc =>
      if rc ≠ espOk then (s.setTask i .releasing, [])
      else ({ s.setTask i .rebooting with installed := some part }, [.switched part])
  | some .releasing, .release => ({ s.setTask i .deleted with isUpdating := false }, [])
  | some .rebooting, .restart => ({ s with rebooted := true }, [])
  | _, _ => (s, [])

/-- The timer which `ScheduleReboot` armed. -/
def fire (s : Updates) : Updates :=
  if 0 < s.timers then { s with rebooted := true } else s

def step (s : Updates) (a : UpdateAct) : Updates × List FlashEvent :=
  if s.rebooted then (s, [])
  else
    match a with
    | .worker a => s.stepWorker next keyValue a
    | .task i a => s.stepTask next i a
    | .timer => (s.fire, [])

end Step

/-! ### What is asked of a run -/

/-- The party `none` is the worker. -/
def Holds (s : Updates) : Option ℕ → Prop
  | none => s.worker.Holds
  | some i => ∃ t, s.tasks[i]? = some t ∧ t.Holds

def Writes (s : Updates) : Option ℕ → Prop
  | none => s.worker.Writes
  | some i => ∃ t, s.tasks[i]? = some t ∧ t.Writes

/-- At most one update writes. -/
def OneWrites (s : Updates) : Prop :=
  ∀ i j, s.Writes i → s.Writes j → i = j

/-- What was made the boot partition is not written any more. -/
def InstalledKept (events : List FlashEvent) : Prop :=
  ∀ pre part post, events = pre ++ .switched part :: post → .written part ∉ post

/-- A request which finds the flag clear. -/
def Admits (next : Option Partition) (s : Updates) : UpdateAct → Prop
  | .worker (.uploadFirmware prefs req) =>
      uploadAllowed next prefs req = true ∧ s.isUpdating = false
  | .worker (.autoUpdate prefs req configured) =>
      autoAllowed prefs req configured = true ∧ s.isUpdating = false
  | _ => False

/-- The condition on the requests. -/
def NoneBehindInstall (next : Option Partition) (s : Updates) (a : UpdateAct) : Prop :=
  s.installed ≠ none → ¬ Admits next s a

/-! ### The parties -/

def Done (s : Updates) : Option ℕ → Prop
  | none => s.worker.Done
  | some i => ∃ t, s.tasks[i]? = some t ∧ t.Done

theorem Worker.Writes.holds {w : Worker} (h : w.Writes) : w.Holds := by
  cases w <;> first | exact h.elim | exact trivial

theorem AutoTask.Writes.holds {t : AutoTask} (h : t.Writes) : t.Holds := by
  cases t <;> first | exact h.elim | exact trivial

theorem Writes.holds {s : Updates} {i : Option ℕ} (h : s.Writes i) : s.Holds i := by
  cases i with
  | none => exact Worker.Writes.holds h
  | some i =>
      obtain ⟨t, ht, hw⟩ := h
      exact ⟨t, ht, AutoTask.Writes.holds hw⟩

section Parties

variable {s s' : Updates} {w : Worker} {i : ℕ} {t t' : AutoTask} {j : Option ℕ}

/-- A step of the worker leaves the tasks. -/
theorem holds_of_worker (htasks : s'.tasks = s.tasks) (h : s'.Holds j) :
    (s.Holds j ∧ j ≠ none) ∨ j = none ∧ s'.worker.Holds := by
  cases j with
  | none => exact Or.inr ⟨rfl, h⟩
  | some k =>
      rw [Holds, htasks] at h
      exact Or.inl ⟨h, nofun⟩

/-- A step of a task leaves the others and the worker. -/
theorem holds_of_task (ht : s.tasks[i]? = some t) (htasks : s'.tasks = s.tasks.set i t')
    (hworker : s'.worker = s.worker) (h : s'.Holds j) :
    (s.Holds j ∧ j ≠ some i) ∨ j = some i ∧ t'.Holds := by
  cases j with
  | none =>
      rw [Holds, hworker] at h
      exact Or.inl ⟨h, nofun⟩
  | some k =>
      obtain ⟨u, hu, hh⟩ := h
      rw [htasks, List.getElem?_set] at hu
      by_cases hk : i = k
      · subst hk
        have hlt : i < s.tasks.length := (List.getElem?_eq_some_iff.mp ht).1
        rw [if_pos rfl, if_pos hlt, Option.some.injEq] at hu
        exact Or.inr ⟨rfl, hu ▸ hh⟩
      · rw [if_neg hk] at hu
        exact Or.inl ⟨⟨u, hu, hh⟩, fun heq => hk (Option.some.inj heq).symm⟩

end Parties

/-- What a step does to the flag and to the boot partition. -/
inductive Move (admitted : Prop) (s s' : Updates) : List FlashEvent → Prop
  | still (hholds : ∀ j, s'.Holds j → s.Holds j)
      (hdone : ∀ j, s'.Holds j → s.Done j → s'.Done j)
      (hflag : s'.isUpdating = s.isUpdating) (hinstalled : s'.installed = s.installed) :
      Move admitted s s' []
  | take (h : admitted) (i : Option ℕ) (hclear : s.isUpdating = false)
      (hflag : s'.isUpdating = true) (hholds : ∀ j, s'.Holds j → s.Holds j ∨ j = i)
      (hinstalled : s'.installed = s.installed) : Move admitted s s' []
  /-- The holder goes on, or hands over to `k`. -/
  | pass (i k : Option ℕ) (hi : s.Holds i) (hnot : ¬ s.Done i)
      (hholds : ∀ j, s'.Holds j → (s.Holds j ∧ j ≠ i) ∨ j = k)
      (hflag : s'.isUpdating = s.isUpdating) (hinstalled : s'.installed = s.installed)
      {events : List FlashEvent} (hevents : ∀ e ∈ events, ∃ part, e = .written part) :
      Move admitted s s' events
  | release (i : Option ℕ) (hi : s.Holds i)
      (hholds : ∀ j, s'.Holds j → s.Holds j ∧ j ≠ i)
      (hinstalled : s'.installed = s.installed) : Move admitted s s' []
  | install (i : Option ℕ) (part : Partition) (hi : s.Holds i) (hnot : ¬ s.Done i)
      (hholds : ∀ j, s'.Holds j → (s.Holds j ∧ j ≠ i) ∨ j = i) (hdone : s'.Done i)
      (hflag : s'.isUpdating = s.isUpdating) (hinstalled : s'.installed = some part) :
      Move admitted s s' [.switched part]

section Moves

variable {admitted : Prop} {s s' : Updates} {events : List FlashEvent}

theorem Move.refl (s : Updates) : Move admitted s s [] :=
  .still (fun _ => id) (fun _ _ => id) rfl rfl

/-- The worker goes on with its update. -/
theorem Move.ofWorker (hholds : s.worker.Holds) (hnot : ¬ s.worker.Done)
    (htasks : s'.tasks = s.tasks) (hflag : s'.isUpdating = s.isUpdating)
    (hinstalled : s'.installed = s.installed)
    (hevents : ∀ e ∈ events, ∃ part, e = .written part) : Move admitted s s' events :=
  .pass none none hholds hnot (fun _ hj => (holds_of_worker htasks hj).imp_right And.left)
    hflag hinstalled hevents

/-- A task goes on with its update. -/
theorem Move.ofTask {i : ℕ} {t t' : AutoTask} (ht : s.tasks[i]? = some t) (hholds : t.Holds)
    (hnot : ¬ t.Done) (htasks : s'.tasks = s.tasks.set i t') (hworker : s'.worker = s.worker)
    (hflag : s'.isUpdating = s.isUpdating) (hinstalled : s'.installed = s.installed)
    (hevents : ∀ e ∈ events, ∃ part, e = .written part) : Move admitted s s' events := by
  refine .pass (some i) (some i) ⟨t, ht, hholds⟩ ?_ ?_ hflag hinstalled hevents
  · rintro ⟨u, hu, hdone⟩
    rw [ht, Option.some.injEq] at hu
    exact hnot (hu ▸ hdone)
  · exact fun _ hj => (holds_of_task ht htasks hworker hj).imp_right And.left

theorem move_pushBegin (next : Option Partition) (up : PushUpload) (rc : EspErr) (heap : Heap)
    (hworker : s.worker = .claimed up) :
    Move admitted s (s.pushBegin next up rc heap) [] := by
  have hgo : ∀ w, Move admitted s (s.setWorker w) [] := fun w =>
    .ofWorker (by rw [hworker]; trivial) (by rw [hworker]; exact id) rfl rfl rfl nofun
  cases next with
  | none => exact hgo _
  | some part =>
      simp only [pushBegin]
      split_ifs <;> exact hgo _

theorem move_pushRecv (part : Partition) (up : PushUpload) (r : Read UInt8 ℤ) (rc : EspErr)
    (hworker : s.worker = .writing part up) :
    Move admitted s (s.pushRecv part up r rc).1 (s.pushRecv part up r rc).2 := by
  have hgo : ∀ w (events : List FlashEvent), (∀ e ∈ events, ∃ part, e = .written part) →
      Move admitted s (s.setWorker w) events := fun w events hevents =>
    .ofWorker (by rw [hworker]; trivial) (by rw [hworker]; exact id) rfl rfl rfl hevents
  have hone : ∀ e ∈ [FlashEvent.written part], ∃ p, e = .written p :=
    fun e he => ⟨part, List.mem_singleton.mp he⟩
  by_cases hmore : up.written < up.cap part
  · simp only [pushRecv, if_pos hmore]
    split
    · exact hgo _ _ nofun
    · by_cases hzero : up.expectedBytes = 0
      · rw [if_pos hzero]
        exact hgo _ _ nofun
      · rw [if_neg hzero]
        exact hgo _ _ nofun
    · by_cases hrc : rc ≠ espOk
      · rw [if_pos hrc]
        exact hgo _ _ hone
      · rw [if_neg hrc]
        exact hgo _ _ hone
  · simp only [pushRecv, if_neg hmore]
    exact hgo _ _ nofun

theorem move_pushFinish (part : Partition) (up : PushUpload) (rc : EspErr)
    (hworker : s.worker = .streamed part up) :
    Move admitted s (s.pushFinish part up rc) [] := by
  have hgo : ∀ w, Move admitted s (s.setWorker w) [] := fun w =>
    .ofWorker (by rw [hworker]; trivial) (by rw [hworker]; exact id) rfl rfl rfl nofun
  rw [pushFinish]
  split_ifs <;> exact hgo _

/-- A worker which takes the flag. -/
theorem Move.takeWorker (h : admitted) (hclear : s.isUpdating = false)
    (hflag : s'.isUpdating = true) (htasks : s'.tasks = s.tasks)
    (hinstalled : s'.installed = s.installed) : Move admitted s s' [] :=
  .take h none hclear hflag (fun _ hj => (holds_of_worker htasks hj).imp And.left And.left)
    hinstalled

/-- A worker without the flag. -/
theorem Move.stillWorker (hworker : ¬ s'.worker.Holds) (htasks : s'.tasks = s.tasks)
    (hflag : s'.isUpdating = s.isUpdating) (hinstalled : s'.installed = s.installed) :
    Move admitted s s' [] := by
  have hothers : ∀ j, s'.Holds j → s.Holds j ∧ j ≠ none := fun j hj =>
    (holds_of_worker htasks hj).resolve_right fun h => hworker h.2
  refine .still (fun j hj => (hothers j hj).1) (fun j hj hdone => ?_) hflag hinstalled
  cases j with
  | none => exact absurd rfl (hothers none hj).2
  | some i =>
      rw [Done, htasks]
      exact hdone

/-- A worker which clears the flag. -/
theorem Move.releaseWorker (hholds : s.worker.Holds) (hworker : ¬ s'.worker.Holds)
    (htasks : s'.tasks = s.tasks) (hinstalled : s'.installed = s.installed) :
    Move admitted s s' [] :=
  .release none hholds
    (fun _ hj => (holds_of_worker htasks hj).resolve_right fun h => hworker h.2) hinstalled

theorem Move.installWorker {part : Partition} (hholds : s.worker.Holds)
    (hnot : ¬ s.worker.Done) (hdone : s'.worker.Done) (htasks : s'.tasks = s.tasks)
    (hflag : s'.isUpdating = s.isUpdating) (hinstalled : s'.installed = some part) :
    Move admitted s s' [.switched part] :=
  .install none part hholds hnot
    (fun _ hj => (holds_of_worker htasks hj).imp_right And.left) hdone hflag hinstalled

/-- The worker hands the flag to a new task. -/
theorem Move.spawnTask (hholds : s.worker.Holds) (hnot : ¬ s.worker.Done)
    (hworker : ¬ s'.worker.Holds) (htasks : s'.tasks = s.tasks ++ [.starting])
    (hflag : s'.isUpdating = s.isUpdating) (hinstalled : s'.installed = s.installed) :
    Move admitted s s' [] := by
  refine .pass none (some s.tasks.length) hholds hnot (fun j hj => ?_) hflag hinstalled nofun
  cases j with
  | none => exact absurd hj hworker
  | some k =>
      obtain ⟨t, ht, htHolds⟩ := hj
      rw [htasks] at ht
      rcases Nat.lt_or_ge k s.tasks.length with hlt | hge
      · rw [List.getElem?_append_left hlt] at ht
        exact Or.inl ⟨⟨t, ht, htHolds⟩, nofun⟩
      · rw [List.getElem?_append_right hge, List.getElem?_singleton] at ht
        split at ht
        · exact Or.inr (congrArg some (by omega))
        · cases ht

theorem move_stepWorker (next : Option Partition) (keyValue : QueryKeyValue) (a : WorkerAct) :
    Move (Admits next s (.worker a)) s (s.stepWorker next keyValue a).1
      (s.stepWorker next keyValue a).2 := by
  unfold stepWorker
  split
  · split
    · rename_i hallowed
      rw [Bool.and_eq_true, Bool.not_eq_true'] at hallowed
      exact .takeWorker hallowed hallowed.2 rfl rfl rfl
    · exact .refl s
  · split
    · rename_i hallowed
      rw [Bool.and_eq_true, Bool.not_eq_true'] at hallowed
      exact .takeWorker hallowed hallowed.2 rfl rfl rfl
    · exact .refl s
  · rename_i hworker
    exact .spawnTask (by rw [hworker]; trivial) (by rw [hworker]; exact id) id rfl rfl rfl
  · rename_i hworker
    exact .releaseWorker (by rw [hworker]; trivial) id rfl rfl
  · rename_i hworker
    exact move_pushBegin next _ _ _ hworker
  · rename_i hworker
    exact move_pushRecv _ _ _ _ hworker
  · rename_i hworker
    exact move_pushFinish _ _ _ hworker
  · rename_i part rc hworker
    have hholds : s.worker.Holds := by
      rw [hworker]
      trivial
    have hnot : ¬ s.worker.Done := by
      rw [hworker]
      exact id
    split
    · exact .ofWorker hholds hnot rfl rfl rfl nofun
    · exact .installWorker hholds hnot trivial rfl rfl rfl
  · rename_i ok hworker
    refine .releaseWorker (by rw [hworker]; trivial) ?_ rfl rfl
    cases ok <;> exact id
  · exact .stillWorker id rfl rfl rfl
  · exact .stillWorker id rfl rfl rfl
  · exact .stillWorker id rfl rfl rfl
  · exact .refl s

/-- The end of a task. -/
theorem Move.releaseTask {i : ℕ} {t t' : AutoTask} (ht : s.tasks[i]? = some t) (hholds : t.Holds)
    (hend : ¬ t'.Holds) (htasks : s'.tasks = s.tasks.set i t') (hworker : s'.worker = s.worker)
    (hinstalled : s'.installed = s.installed) : Move admitted s s' [] :=
  .release (some i) ⟨t, ht, hholds⟩
    (fun _ hj => (holds_of_task ht htasks hworker hj).resolve_right fun h => hend h.2) hinstalled

theorem Move.installTask {i : ℕ} {t t' : AutoTask} {part : Partition}
    (ht : s.tasks[i]? = some t) (hholds : t.Holds) (hnot : ¬ t.Done) (hdone : t'.Done)
    (htasks : s'.tasks = s.tasks.set i t') (hworker : s'.worker = s.worker)
    (hflag : s'.isUpdating = s.isUpdating) (hinstalled : s'.installed = some part) :
    Move admitted s s' [.switched part] := by
  refine .install (some i) part ⟨t, ht, hholds⟩ ?_ ?_ ⟨t', ?_, hdone⟩ hflag hinstalled
  · rintro ⟨u, hu, hu'⟩
    rw [ht, Option.some.injEq] at hu
    exact hnot (hu ▸ hu')
  · exact fun _ hj => (holds_of_task ht htasks hworker hj).imp_right And.left
  · rw [htasks, List.getElem?_set_self (List.getElem?_eq_some_iff.mp ht).1]

theorem move_stepTask (next : Option Partition) (i : ℕ) (a : TaskAct) :
    Move admitted s (s.stepTask next i a).1 (s.stepTask next i a).2 := by
  have hone : ∀ part, ∀ e ∈ [FlashEvent.written part], ∃ p, e = .written p :=
    fun part e he => ⟨part, List.mem_singleton.mp he⟩
  have hset : ∀ t, s.tasks[i]? = some t → s.tasks = s.tasks.set i t := by
    intro t ht
    obtain ⟨hlt, rfl⟩ := List.getElem?_eq_some_iff.mp ht
    exact (List.set_getElem_self hlt).symm
  unfold stepTask
  split
  · rename_i ht
    exact .ofTask ht trivial id rfl rfl rfl rfl nofun
  · rename_i ht
    cases next with
    | none => exact .ofTask ht trivial id rfl rfl rfl rfl nofun
    | some part => exact .ofTask ht trivial id rfl rfl rfl rfl nofun
  · rename_i part ht
    exact .ofTask ht trivial id (hset _ ht) rfl rfl rfl (hone part)
  · rename_i part ht
    exact .ofTask ht trivial id rfl rfl rfl rfl (hone part)
  · rename_i part complete ht
    exact .ofTask ht trivial id rfl rfl rfl rfl (hone part)
  · rename_i ht
    exact .ofTask ht trivial id rfl rfl rfl rfl nofun
  · rename_i part rc ht
    split
    · exact .ofTask ht trivial id rfl rfl rfl rfl nofun
    · refine .installTask ht trivial id ?_ rfl rfl rfl rfl
      trivial
  · rename_i ht
    exact .releaseTask ht trivial id rfl rfl rfl
  · exact .still (fun _ => id) (fun _ _ => id) rfl rfl
  · exact .refl s

theorem move_step (next : Option Partition) (keyValue : QueryKeyValue) (a : UpdateAct) :
    Move (Admits next s a) s (s.step next keyValue a).1 (s.step next keyValue a).2 := by
  unfold Updates.step
  split
  · exact .refl s
  · cases a with
    | worker a => exact move_stepWorker next keyValue a
    | task i a => exact move_stepTask next i a
    | timer =>
        simp only [fire]
        split
        · exact .still (fun _ => id) (fun _ _ => id) rfl rfl
        · exact .refl s

end Moves

/-! ### One step -/

/-- One update holds the flag, and none goes on once an image was installed. -/
structure Guarded (s : Updates) : Prop where
  owned : Exclusive s.Holds s.isUpdating
  settled : s.installed ≠ none → ∀ i, s.Holds i → s.Done i

section Guard

variable {admitted : Prop} {s s' : Updates} {events : List FlashEvent}

theorem Move.owned (m : Move admitted s s' events) (h : Exclusive s.Holds s.isUpdating) :
    Exclusive s'.Holds s'.isUpdating := by
  cases m with
  | still hholds _ hflag =>
      rw [hflag]
      exact h.mono hholds
  | take _ i hclear hflag hholds =>
      rw [hflag]
      rw [hclear] at h
      exact h.take hholds
  | pass i k hi _ hholds hflag =>
      rw [hflag]
      exact h.pass hi hholds
  | release i hi hholds => exact h.release hi hholds _
  | install i part hi _ hholds _ hflag =>
      rw [hflag]
      exact h.pass hi hholds

/-- Once an image was installed, nothing more happens to the flash. -/
theorem Move.settled (m : Move admitted s s' events) (h : Guarded s)
    (hinstalled : s.installed ≠ none) : s'.installed ≠ none ∧ events = [] := by
  cases m with
  | still _ _ _ heq => exact ⟨heq ▸ hinstalled, rfl⟩
  | take _ _ _ _ _ heq => exact ⟨heq ▸ hinstalled, rfl⟩
  | pass i _ hi hnot => exact absurd (h.settled hinstalled i hi) hnot
  | release _ _ _ heq => exact ⟨heq ▸ hinstalled, rfl⟩
  | install i _ hi hnot => exact absurd (h.settled hinstalled i hi) hnot

theorem Move.guarded (m : Move admitted s s' events) (h : Guarded s)
    (hcondition : s.installed ≠ none → ¬ admitted) : Guarded s' := by
  refine ⟨m.owned h.owned, fun hinstalled j hj => ?_⟩
  cases m with
  | still hholds hdone _ heq =>
      exact hdone j hj (h.settled (heq ▸ hinstalled) j (hholds j hj))
  | take hadmitted _ _ _ _ heq => exact absurd hadmitted (hcondition (heq ▸ hinstalled))
  | pass i _ hi hnot _ _ heq => exact absurd (h.settled (heq ▸ hinstalled) i hi) hnot
  | release i hi hholds => exact absurd hj (h.owned.none_of_holds hi hholds j)
  | install i _ hi _ hholds hdone =>
      have hown : j = i :=
        (hholds j hj).elim (fun hne => h.owned.alone j i hne.1 hi) id
      rw [hown]
      exact hdone

/-- A step emits nothing, or pieces which were written, or that an image was installed. -/
theorem Move.events_cases (m : Move admitted s s' events) :
    (∀ e ∈ events, ∃ part, e = .written part) ∨
      ∃ part, events = [.switched part] ∧ s'.installed = some part := by
  cases m with
  | still => exact Or.inl nofun
  | take => exact Or.inl nofun
  | pass _ _ _ _ _ _ _ hevents => exact Or.inl hevents
  | release => exact Or.inl nofun
  | install _ part _ _ _ _ _ hinstalled => exact Or.inr ⟨part, rfl, hinstalled⟩

end Guard

theorem guarded_initial : Guarded {} where
  owned := Exclusive.of_none (fun i hi => by
    cases i with
    | none => exact hi
    | some i =>
        obtain ⟨t, ht, -⟩ := hi
        cases ht) false
  settled h := absurd rfl h

theorem oneWrites_of_owned {s : Updates} (h : Exclusive s.Holds s.isUpdating) : OneWrites s :=
  fun i j hi hj => h.alone i j hi.holds hj.holds

/-! ### A run -/

theorem installedKept_nil : InstalledKept [] := by
  intro pre part post h
  cases pre <;> cases h

theorem installedKept_switched (part : Partition) : InstalledKept [.switched part] := by
  intro pre q post h
  cases pre with
  | nil =>
      cases h
      exact List.not_mem_nil
  | cons e pre =>
      obtain ⟨-, h⟩ := List.cons_eq_cons.mp h
      cases pre <;> cases h

theorem InstalledKept.append {first events : List FlashEvent}
    (hfirst : ∀ e ∈ first, ∃ part, e = .written part) (h : InstalledKept events) :
    InstalledKept (first ++ events) := by
  induction first with
  | nil => exact h
  | cons e first ih =>
      obtain ⟨⟨q, rfl⟩, hrest⟩ := List.forall_mem_cons.mp hfirst
      intro pre part post heq
      cases pre with
      | nil => cases heq
      | cons e pre => exact ih hrest pre part post (List.cons_eq_cons.mp heq).2

section Run

variable {next : Option Partition} {keyValue : QueryKeyValue} {s : Updates}
  {acts : List UpdateAct}

theorem owned_reached (h : Exclusive s.Holds s.isUpdating) (acts : List UpdateAct) :
    Exclusive (reached (step next keyValue) s acts).Holds
      (reached (step next keyValue) s acts).isUpdating := by
  induction acts generalizing s with
  | nil => exact h
  | cons a acts ih => exact ih ((move_step next keyValue a).owned h)

/-- The requests behind an installed image do not find the flag clear. -/
abbrev AdmissionsEnd (next : Option Partition) (keyValue : QueryKeyValue) :
    Updates → List UpdateAct → Prop :=
  Along (fun s a => (step next keyValue s a).1) (NoneBehindInstall next)

theorem emitted_of_installed (h : Guarded s) (hinstalled : s.installed ≠ none)
    (hrun : AdmissionsEnd next keyValue s acts) :
    emitted (step next keyValue) s acts = [] := by
  induction acts generalizing s with
  | nil => rfl
  | cons a acts ih =>
      have m := move_step (s := s) next keyValue a
      obtain ⟨hafter, hnone⟩ := m.settled h hinstalled
      rw [emitted_cons, hnone, ih (m.guarded h hrun.1) hafter hrun.2]
      rfl

theorem installedKept_emitted (h : Guarded s) (hrun : AdmissionsEnd next keyValue s acts) :
    InstalledKept (emitted (step next keyValue) s acts) := by
  induction acts generalizing s with
  | nil => exact installedKept_nil
  | cons a acts ih =>
      have m := move_step (s := s) next keyValue a
      have hguarded := m.guarded h hrun.1
      rw [emitted_cons]
      rcases m.events_cases with hwritten | ⟨part, hevents, hinstalled⟩
      · exact (ih hguarded hrun.2).append hwritten
      · rw [hevents, emitted_of_installed hguarded (hinstalled ▸ nofun) hrun.2]
        exact installedKept_switched part

end Run

/-- At no time do two updates write, and no piece of an image is written over an installed
one. -/
def Safe (next : Option Partition) (keyValue : QueryKeyValue) (acts : List UpdateAct) : Prop :=
  (∀ pre post, acts = pre ++ post →
      OneWrites (reached (step next keyValue) {} pre)) ∧
    InstalledKept (emitted (step next keyValue) {} acts)

/-- A run is safe when no request finds the flag clear behind an installed image. -/
theorem along_safe (next : Option Partition) (keyValue : QueryKeyValue) (acts : List UpdateAct)
    (hrun : Along (fun s a => (step next keyValue s a).1) (NoneBehindInstall next) {} acts) :
    Safe next keyValue acts :=
  ⟨fun pre _ _ => oneWrites_of_owned (owned_reached guarded_initial.owned pre),
    installedKept_emitted guarded_initial hrun⟩

instance (next : Option Partition) (s : Updates) : DecidablePred (Admits next s)
  | .worker (.uploadFirmware _ _) => inferInstanceAs (Decidable (_ ∧ _))
  | .worker (.autoUpdate _ _ _) => inferInstanceAs (Decidable (_ ∧ _))
  | .worker (.spawn _) | .worker (.push _ _) | .worker (.recv _ _) | .worker (.finish _)
  | .worker (.activate _) | .worker .release | .worker .blinked | .worker (.schedule _)
  | .task _ _ | .timer => inferInstanceAs (Decidable False)

instance (next : Option Partition) (s : Updates) : DecidablePred (NoneBehindInstall next s) :=
  fun _ => inferInstanceAs (Decidable (_ → ¬ _))

/-- The partition behind the running one. -/
def otaOne : Partition where
  address := 0x1B0000
  size := 0x1A0000

def uploadOf (bytes : List UInt8) : HttpRequest where
  contentLen := bytes.length
  body := []

/-- A push of one byte up to the end of `WritePushImage`. -/
def pushSteps (b : UInt8) : List UpdateAct :=
  ([.uploadFirmware Prefs.empty (uploadOf [b]), .push espOk ⟨true, true⟩, .recv (.got [b]) espOk,
    .recv (.got []) espOk, .finish espOk, .activate espOk, .release] : List WorkerAct).map .worker

/-- An automatic update, during which an upload is refused. -/
def autoSteps : List UpdateAct :=
  [.worker (.autoUpdate Prefs.empty (uploadOf []) true), .worker (.spawn true),
    .task 0 (.resolve true), .task 0 (.start espOk), .task 0 (.perform .inProgress),
    .worker (.uploadFirmware Prefs.empty (uploadOf [7])), .task 0 (.perform (.ended true)),
    .task 0 (.verify true), .task 0 (.finish espOk),
    .worker (.uploadFirmware Prefs.empty (uploadOf [7])), .task 0 .restart]

theorem autoSteps_safe : Safe (some otaOne) (fun _ _ => none) autoSteps :=
  along_safe _ _ _ (by decide)

/-- The worker is free again before the timer fires, and the flag is clear. -/
def secondPush : List UpdateAct :=
  pushSteps 7 ++ [.worker .blinked, .worker (.schedule true)] ++ pushSteps 8

theorem secondPush_not_safe : ¬ Safe (some otaOne) (fun _ _ => none) secondPush := by
  have hevents : emitted (step (some otaOne) fun _ _ => none) {} secondPush =
      [.written otaOne, .switched otaOne, .written otaOne, .switched otaOne] := by
    decide
  intro h
  have hkept := h.2
  rw [hevents] at hkept
  exact hkept [.written otaOne] otaOne [.written otaOne, .switched otaOne] rfl List.mem_cons_self

end Updates

end Webserver

end BtClock
