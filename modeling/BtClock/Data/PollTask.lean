import BtClock.Transition.Run

/-!
# The task of a polled source

`PoolDataSource` and `BitaxeSource` have the same `Start`, `Stop` and `Run`.  A `Stop` which does
not wait for its task to the end leaves the task behind, and the next `Start` clears the flag
which would have ended it.
-/

namespace BtClock

namespace PollTask

open Transition

/-- Where a task stands, by its next load or call. -/
inductive Stage
  /-- in the delay before the first poll -/
  | staggered
  /-- before the load of the flag -/
  | checking
  /-- inside `PollOnce`, before the test of the hub -/
  | polling
  /-- behind the test, before the call of `Report` -/
  | reporting
  /-- in the sleep between two polls -/
  | sleeping
  /-- behind `Run`, before the semaphore is given -/
  | exiting
  deriving DecidableEq, Repr

/-- Where the thread which calls `Start` and `Stop` stands. -/
inductive Caller
  | idle
  /-- in `Start`, before the store of the hub -/
  | starting
  /-- before the store of the flag -/
  | clearing
  /-- before the semaphore is looked at -/
  | preparing
  /-- before `xTaskCreate` -/
  | creating
  /-- in `Stop`, in the wait for the semaphore -/
  | waiting
  /-- behind the wait -/
  | leaving
  deriving DecidableEq, Repr

/-- A source with its tasks.  A pointer is kept as whether it is set. -/
structure Source where
  hub : Bool := false
  task : Bool := false
  stop : Bool := false
  /-- the semaphore, with whether it is given -/
  done : Option Bool := none
  /-- the tasks which have not given the semaphore yet -/
  tasks : List Stage := []
  caller : Caller := .idle
  /-- `Stop` has returned, and `Start` was not called since -/
  stopped : Bool := false
  deriving DecidableEq, Repr

/-- The calls and the steps, with what is met there: a semaphore or a task can be created, the
wait goes on, a poll has something to report, the sleep goes on. -/
inductive Act
  | start
  | stop
  | caller (r : Bool)
  | task (i : ℕ) (r : Bool)
  deriving DecidableEq, Repr

namespace Source

/-- The stores with which `Stop` returns. -/
def leave (s : Source) : Source :=
  { s with hub := false, task := false, caller := .idle, stopped := true }

def stepCaller (s : Source) (r : Bool) : Source :=
  match s.caller with
  | .idle => s
  | .starting => { s with hub := true, caller := .clearing }
  | .clearing => { s with stop := false, caller := .preparing }
  | .preparing =>
      if s.done ≠ none then { s with caller := .creating }
      else if r then { s with done := some false, caller := .creating }
      else { s with hub := false, caller := .idle }
  | .creating =>
      if r then { s with tasks := s.tasks ++ [.staggered], task := true, caller := .idle }
      else { s with task := false, hub := false, caller := .idle }
  | .waiting =>
      if s.done = some true then { s with done := some false, caller := .leaving }
      else if s.done = some false ∧ r then s
      else { s with caller := .leaving }
  | .leaving => s.leave

/-- The next step of a task; behind the last one it is over. -/
def stepStage (s : Source) (r : Bool) : Stage → Option Stage
  | .staggered => some .checking
  | .checking => some (if s.stop then .exiting else .polling)
  | .polling => some (if r ∧ s.hub then .reporting else .sleeping)
  | .reporting => some .sleeping
  | .sleeping => some (if r ∧ s.stop = false then .sleeping else .checking)
  | .exiting => none

def stepTask (s : Source) (i : ℕ) (r : Bool) : Source :=
  match s.tasks[i]? with
  | none => s
  | some stage =>
      match s.stepStage r stage with
      | some stage' => { s with tasks := s.tasks.set i stage' }
      | none =>
          { s with
            done := s.done.map fun _ => true
            tasks := s.tasks.eraseIdx i }

def step (s : Source) : Act → Source
  | .start => if s.caller = .idle then { s with caller := .starting, stopped := false } else s
  | .stop =>
      if s.caller = .idle then
        if s.task = false then s.leave else { s with stop := true, caller := .waiting }
      else s
  | .caller r => s.stepCaller r
  | .task i r => s.stepTask i r

/-! ### What is asked of a state -/

/-- The step is a call of `Report`. -/
def Reports (s : Source) : Act → Prop
  | .task i _ => s.tasks[i]? = some .reporting
  | _ => False

/-- There is at most one task, and none can report behind `Stop`. -/
structure Safe (s : Source) : Prop where
  atMostOne : s.tasks.length ≤ 1
  silent : s.stopped = true → ∀ a, ¬ Reports s a

/-- A task is created when there is none, and `Stop` returns when no task is about to report. -/
def Orderly (s : Source) : Act → Prop
  | .caller true => (s.caller = .creating → s.tasks = []) ∧
      (s.caller = .leaving → .reporting ∉ s.tasks)
  | .caller false => s.caller = .leaving → .reporting ∉ s.tasks
  | .stop => s.caller = .idle → s.task = false → .reporting ∉ s.tasks
  | .start | .task _ _ => True

theorem forall_not_reports_iff (s : Source) : (∀ a, ¬ Reports s a) ↔ .reporting ∉ s.tasks := by
  constructor
  · intro h hmem
    obtain ⟨i, hi⟩ := List.mem_iff_getElem?.mp hmem
    exact h (.task i true) hi
  · intro h a hreports
    cases a with
    | task i r => exact h (List.mem_of_getElem? hreports)
    | start => exact hreports
    | stop => exact hreports
    | caller r => exact hreports

theorem safe_iff (s : Source) :
    Safe s ↔ s.tasks.length ≤ 1 ∧ (s.stopped = true → .reporting ∉ s.tasks) := by
  rw [← forall_not_reports_iff]
  exact ⟨fun h => ⟨h.1, h.2⟩, fun h => ⟨h.1, h.2⟩⟩

/-- `Start` sets the hub. -/
def Caller.inStart : Caller → Bool
  | .starting | .clearing | .preparing | .creating => true
  | .idle | .waiting | .leaving => false

/-- Behind `Stop` the hub is gone until the next `Start`. -/
def Detached (s : Source) : Prop :=
  s.stopped = true → s.hub = false ∧ Caller.inStart s.caller = false

theorem detached_initial : Detached {} :=
  nofun

theorem detached_leave (s : Source) : Detached s.leave :=
  fun _ => ⟨rfl, rfl⟩

theorem Detached.not_stopped {s : Source} (h : Detached s) (hin : Caller.inStart s.caller = true) :
    s.stopped ≠ true := by
  intro hstopped
  have hout := (h hstopped).2
  rw [hin] at hout
  cases hout

theorem Detached.stepCaller {s : Source} (h : Detached s) (r : Bool) :
    Detached (s.stepCaller r) := by
  unfold Source.stepCaller
  split
  · exact h
  · rename_i hcaller
    exact fun hs => absurd hs (h.not_stopped (by rw [hcaller]; rfl))
  · rename_i hcaller
    exact fun hs => absurd hs (h.not_stopped (by rw [hcaller]; rfl))
  · rename_i hcaller
    have hrunning := h.not_stopped (by rw [hcaller]; rfl)
    split_ifs <;> exact fun hs => absurd hs hrunning
  · rename_i hcaller
    have hrunning := h.not_stopped (by rw [hcaller]; rfl)
    split_ifs <;> exact fun hs => absurd hs hrunning
  · split_ifs
    · exact fun hs => ⟨(h hs).1, rfl⟩
    · exact h
    · exact fun hs => ⟨(h hs).1, rfl⟩
  · exact detached_leave s

theorem Detached.stepTask {s : Source} (h : Detached s) (i : ℕ) (r : Bool) :
    Detached (s.stepTask i r) := by
  unfold Source.stepTask
  split
  · exact h
  · split <;> exact h

theorem Detached.step {s : Source} (h : Detached s) (a : Act) : Detached (s.step a) := by
  cases a with
  | start =>
      simp only [Source.step]
      split
      · exact nofun
      · exact h
  | stop =>
      simp only [Source.step]
      split_ifs
      · exact detached_leave s
      · exact fun hs => ⟨(h hs).1, rfl⟩
      · exact h
  | caller r => exact h.stepCaller r
  | task i r => exact h.stepTask i r

/-- Without a hub no task comes to report. -/
theorem stepStage_ne_reporting {s : Source} (h : s.hub = false) (r : Bool) (stage : Stage) :
    s.stepStage r stage ≠ some .reporting := by
  cases stage with
  | staggered => exact nofun
  | checking => cases hstop : s.stop <;> simp [stepStage, hstop]
  | polling => simp [stepStage, h]
  | reporting => exact nofun
  | sleeping =>
      rw [stepStage]
      split <;> exact nofun
  | exiting => exact nofun

theorem Safe.stepTask {s : Source} (h : Safe s) (hdetached : Detached s) (i : ℕ) (r : Bool) :
    Safe (s.stepTask i r) := by
  rw [safe_iff] at h ⊢
  unfold Source.stepTask
  split
  · exact h
  · rename_i stage hstage
    split
    · rename_i stage' hstage'
      refine ⟨by rw [List.length_set]; exact h.1, fun hstopped hmem => ?_⟩
      rcases List.mem_or_eq_of_mem_set hmem with hold | rfl
      · exact h.2 hstopped hold
      · exact stepStage_ne_reporting (hdetached hstopped).1 r stage hstage'
    · refine ⟨Nat.le_trans (List.length_eraseIdx_le _ _) h.1, fun hstopped hmem => ?_⟩
      exact h.2 hstopped (List.mem_of_mem_eraseIdx hmem)

/-- Behind the return of `Stop` the state is safe when no task is about to report. -/
theorem safe_leave_iff {s : Source} (h : Safe s) : Safe s.leave ↔ .reporting ∉ s.tasks := by
  rw [safe_iff]
  exact ⟨fun hsafe => hsafe.2 rfl, fun hnot => ⟨h.atMostOne, fun _ => hnot⟩⟩

/-- A state with the same tasks which is not stopped, or was before. -/
theorem Safe.of_tasks {s s' : Source} (h : Safe s) (htasks : s'.tasks = s.tasks)
    (hstopped : s'.stopped = true → s.stopped = true) : Safe s' := by
  rw [safe_iff] at h ⊢
  rw [htasks]
  exact ⟨h.1, fun hs => h.2 (hstopped hs)⟩

theorem orderly_caller_of_ne {s : Source} (hcreating : s.caller ≠ .creating)
    (hleaving : s.caller ≠ .leaving) (r : Bool) : Orderly s (.caller r) := by
  cases r with
  | true => exact ⟨fun hc => absurd hc hcreating, fun hc => absurd hc hleaving⟩
  | false => exact fun hc => absurd hc hleaving

theorem Safe.stepCaller_iff {s : Source} (h : Safe s) (hdetached : Detached s) (r : Bool) :
    Safe (s.stepCaller r) ↔ Orderly s (.caller r) := by
  cases hcaller : s.caller with
  | idle =>
      refine iff_of_true ?_ (orderly_caller_of_ne (by simp [hcaller]) (by simp [hcaller]) r)
      simp only [stepCaller, hcaller]
      exact h
  | starting =>
      refine iff_of_true ?_ (orderly_caller_of_ne (by simp [hcaller]) (by simp [hcaller]) r)
      simp only [stepCaller, hcaller]
      exact h.of_tasks rfl id
  | clearing =>
      refine iff_of_true ?_ (orderly_caller_of_ne (by simp [hcaller]) (by simp [hcaller]) r)
      simp only [stepCaller, hcaller]
      exact h.of_tasks rfl id
  | preparing =>
      refine iff_of_true ?_ (orderly_caller_of_ne (by simp [hcaller]) (by simp [hcaller]) r)
      simp only [stepCaller, hcaller]
      split_ifs <;> exact h.of_tasks rfl id
  | waiting =>
      refine iff_of_true ?_ (orderly_caller_of_ne (by simp [hcaller]) (by simp [hcaller]) r)
      simp only [stepCaller, hcaller]
      split_ifs <;> exact h.of_tasks rfl id
  | leaving =>
      have hleave : s.stepCaller r = s.leave := by simp only [stepCaller, hcaller]
      rw [hleave, safe_leave_iff h]
      cases r with
      | true => exact ⟨fun hnot => ⟨by simp [hcaller], fun _ => hnot⟩, fun hc => hc.2 hcaller⟩
      | false => exact ⟨fun hnot _ => hnot, fun hc => hc hcaller⟩
  | creating =>
      have hrunning := hdetached.not_stopped (by rw [hcaller]; rfl)
      cases r with
      | false =>
          refine iff_of_true ?_ fun hc => absurd (hcaller.symm.trans hc) nofun
          simp only [stepCaller, hcaller]
          exact h.of_tasks rfl id
      | true =>
          simp only [stepCaller, hcaller, if_true, safe_iff, List.length_append,
            List.length_singleton]
          constructor
          · rintro ⟨hlen, -⟩
            have hnone : s.tasks = [] := List.length_eq_zero_iff.mp (by omega)
            exact ⟨fun _ => hnone, fun hc => absurd (hcaller.symm.trans hc) nofun⟩
          · intro horderly
            rw [horderly.1 hcaller]
            exact ⟨by simp, fun hs => absurd hs hrunning⟩

theorem Safe.step_iff {s : Source} (h : Safe s) (hdetached : Detached s) (a : Act) :
    Safe (s.step a) ↔ Orderly s a := by
  cases a with
  | start =>
      refine iff_of_true ?_ trivial
      simp only [Source.step]
      split
      · exact h.of_tasks rfl nofun
      · exact h
  | stop =>
      simp only [Source.step]
      split_ifs with hidle htask
      · rw [safe_leave_iff h]
        exact ⟨fun hnot _ _ => hnot, fun horderly => horderly hidle htask⟩
      · exact iff_of_true (h.of_tasks rfl id) fun _ hnone => absurd hnone htask
      · exact iff_of_true h fun hcaller => absurd hcaller hidle
  | caller r => exact h.stepCaller_iff hdetached r
  | task i r => exact iff_of_true (h.stepTask hdetached i r) trivial

/-- All states of a run are safe exactly when tasks are created where there is none, and `Stop`
returns where no task is about to report. -/
theorem safe_iff_along_orderly (acts : List Act) :
    (∀ pre post, acts = pre ++ post → Safe (run step {} pre)) ↔ Along step Orderly {} acts := by
  have hstep : ∀ (s : Source) (a : Act), Detached s → Detached (step s a) := fun _ a h => h.step a
  have hdetached : ∀ pre, Detached (run step {} pre) := run_invariant hstep detached_initial
  have hinitial : Safe {} ∧ Detached {} := ⟨(safe_iff {}).mpr ⟨by decide, nofun⟩, detached_initial⟩
  rw [← forall_prefix_iff_along (I := fun s => Safe s ∧ Detached s)
    (fun s a h => ⟨fun hnext => (h.1.step_iff h.2 a).mp hnext.1,
      fun horderly => ⟨(h.1.step_iff h.2 a).mpr horderly, h.2.step a⟩⟩) hinitial]
  exact ⟨fun h pre post hacts => ⟨h pre post hacts, hdetached pre⟩,
    fun h pre post hacts => (h pre post hacts).1⟩

/-! ### Calls which keep to the order -/

/-- `Start` is called on a source which is not started, and the wait in `Stop` does not expire. -/
def Prompt (s : Source) : Act → Prop
  | .start => s.caller = .idle → s.task = false
  | .caller false => s.caller = .waiting → s.done = some true
  | .stop | .caller true | .task _ _ => True

/-- A task is there only while the source is started, and it ends only while `Stop` waits. -/
structure Attended (s : Source) : Prop where
  created : s.task = true ∨ s.caller = .waiting ∨ s.caller = .creating → s.done ≠ none
  cleared : s.caller = .preparing ∨ s.caller = .creating → s.stop = false
  lone : s.tasks.length ≤ 1
  kept : s.tasks ≠ [] → s.caller = .waiting ∨ s.caller = .idle ∧ s.task = true
  ending : s.tasks ≠ [] → s.stop = true → s.caller = .waiting
  exiting : .exiting ∈ s.tasks → s.caller = .waiting
  given : s.done = some true → s.caller = .waiting ∧ s.tasks = []

theorem Attended.tasks_eq_nil {s : Source} (h : Attended s) (hwaiting : s.caller ≠ .waiting)
    (hidle : s.caller = .idle → s.task = false) : s.tasks = [] := by
  by_contra hne
  rcases h.kept hne with hcaller | ⟨hcaller, htask⟩
  · exact hwaiting hcaller
  · rw [hidle hcaller] at htask
    cases htask

/-- A state without a task and without a token. -/
theorem attended_of_nil {s : Source} (htasks : s.tasks = [])
    (hcreated : s.task = true ∨ s.caller = .waiting ∨ s.caller = .creating → s.done ≠ none)
    (hcleared : s.caller = .preparing ∨ s.caller = .creating → s.stop = false)
    (hdone : s.done ≠ some true) : Attended s where
  created := hcreated
  cleared := hcleared
  lone := by rw [htasks]; exact Nat.zero_le 1
  kept hne := absurd htasks hne
  ending hne := absurd htasks hne
  exiting hmem := by rw [htasks] at hmem; cases hmem
  given hd := absurd hd hdone

theorem Attended.done_ne {s : Source} (h : Attended s) (hwaiting : s.caller ≠ .waiting) :
    s.done ≠ some true :=
  fun hdone => hwaiting (h.given hdone).1

theorem Attended.orderly {s : Source} (h : Attended s) (a : Act) : Orderly s a := by
  have hnil : ∀ c, s.caller = c → c ≠ .waiting → c ≠ .idle → s.tasks = [] := by
    rintro c rfl hwaiting hidle
    exact h.tasks_eq_nil hwaiting fun hc => absurd hc hidle
  have hleaving : s.caller = .leaving → Stage.reporting ∉ s.tasks := by
    intro hc
    rw [hnil _ hc nofun nofun]
    exact List.not_mem_nil
  cases a with
  | start => trivial
  | task i r => trivial
  | stop =>
      intro hc htask
      rw [h.tasks_eq_nil (by rw [hc]; exact nofun) fun _ => htask]
      exact List.not_mem_nil
  | caller r =>
      cases r with
      | true => exact ⟨fun hc => hnil _ hc nofun nofun, hleaving⟩
      | false => exact hleaving

/-- A task ends when the flag is set. -/
theorem stop_of_exiting {s : Source} {r : Bool} {stage : Stage}
    (h : s.stepStage r stage = some .exiting) : s.stop = true := by
  cases stage with
  | checking =>
      rw [stepStage] at h
      split at h
      · assumption
      · cases h
  | polling =>
      rw [stepStage] at h
      split at h <;> cases h
  | sleeping =>
      rw [stepStage] at h
      split at h <;> cases h
  | staggered => cases h
  | reporting => cases h
  | exiting => cases h

theorem Attended.stepTask {s : Source} (h : Attended s) (i : ℕ) (r : Bool) :
    Attended (s.stepTask i r) := by
  unfold Source.stepTask
  split
  · exact h
  · rename_i stage hstage
    have hmem : stage ∈ s.tasks := List.mem_of_getElem? hstage
    have hne : s.tasks ≠ [] := List.ne_nil_of_mem hmem
    split
    · rename_i stage' hstage'
      have hset : s.tasks.set i stage' ≠ [] := by
        rw [ne_eq, List.set_eq_nil_iff]
        exact hne
      refine ⟨h.created, h.cleared, by rw [List.length_set]; exact h.lone, fun _ => h.kept hne,
        fun _ => h.ending hne, fun hexit => ?_, fun hd => absurd (h.given hd).2 hne⟩
      rcases List.mem_or_eq_of_mem_set hexit with hold | rfl
      · exact h.exiting hold
      · exact h.ending hne (stop_of_exiting hstage')
    · rename_i hover
      have hexiting : stage = .exiting := by
        cases stage with
        | exiting => rfl
        | _ => cases hover
      subst hexiting
      have hwaiting := h.exiting hmem
      have hnil : s.tasks.eraseIdx i = [] := by
        have hi := (List.getElem?_eq_some_iff.mp hstage).1
        have hlone := h.lone
        rw [← List.length_eq_zero_iff, List.length_eraseIdx_of_lt hi]
        omega
      exact ⟨fun hc => by simpa using h.created hc, h.cleared, by rw [hnil]; exact Nat.zero_le 1,
        fun hc => absurd hnil hc, fun hc => absurd hnil hc, fun _ => hwaiting,
        fun _ => ⟨hwaiting, hnil⟩⟩

theorem Attended.stepCaller {s : Source} (h : Attended s) {r : Bool}
    (hprompt : Prompt s (.caller r)) : Attended (s.stepCaller r) := by
  have hnil : ∀ c, s.caller = c → c ≠ .waiting → c ≠ .idle → s.tasks = [] := by
    rintro c rfl hwaiting hidle
    exact h.tasks_eq_nil hwaiting fun hc => absurd hc hidle
  unfold Source.stepCaller
  split
  · exact h
  · rename_i hcaller
    exact attended_of_nil (hnil _ hcaller nofun nofun)
      (fun hc => h.created (hc.imp_right (Or.elim · nofun nofun))) (Or.elim · nofun nofun)
      (h.done_ne (by rw [hcaller]; exact nofun))
  · rename_i hcaller
    exact attended_of_nil (hnil _ hcaller nofun nofun)
      (fun hc => h.created (hc.imp_right (Or.elim · nofun nofun))) (fun _ => rfl)
      (h.done_ne (by rw [hcaller]; exact nofun))
  · rename_i hcaller
    have htasks := hnil _ hcaller nofun nofun
    have hdone := h.done_ne (by rw [hcaller]; exact nofun)
    have hcleared := h.cleared (Or.inl hcaller)
    split_ifs with hsome
    · exact attended_of_nil htasks (fun _ => hsome) (fun _ => hcleared) hdone
    · exact attended_of_nil htasks (fun _ => nofun) (fun _ => hcleared) nofun
    · exact attended_of_nil htasks (fun hc => h.created (hc.imp_right (Or.elim · nofun nofun)))
        (Or.elim · nofun nofun) hdone
  · rename_i hcaller
    have htasks := hnil _ hcaller nofun nofun
    have hdone := h.done_ne (by rw [hcaller]; exact nofun)
    have hcleared := h.cleared (Or.inr hcaller)
    split_ifs
    · have hsome := h.created (Or.inr (Or.inr hcaller))
      exact
        { created := fun _ => hsome
          cleared := fun _ => hcleared
          lone := by simp [htasks]
          kept := fun _ => Or.inr ⟨rfl, rfl⟩
          ending := fun _ hstop => absurd (hcleared.symm.trans hstop) nofun
          exiting := fun hmem => by simp [htasks] at hmem
          given := fun hd => absurd hd hdone }
    · exact attended_of_nil htasks (fun hc => hc.elim nofun (Or.elim · nofun nofun))
        (Or.elim · nofun nofun) hdone
  · rename_i hcaller
    have hsome := h.created (Or.inr (Or.inl hcaller))
    split_ifs with htaken hwaits
    · exact attended_of_nil (h.given htaken).2 (fun _ => nofun) (Or.elim · nofun nofun) nofun
    · exact h
    · have hgiven : s.done = some false := by
        cases hd : s.done with
        | none => exact absurd hd hsome
        | some given =>
            cases given with
            | false => rfl
            | true => exact absurd hd htaken
      cases r with
      | true => exact absurd ⟨hgiven, rfl⟩ hwaits
      | false => exact absurd (hprompt hcaller) htaken
  · rename_i hcaller
    exact attended_of_nil (hnil _ hcaller nofun nofun)
      (fun hc => hc.elim nofun (Or.elim · nofun nofun)) (Or.elim · nofun nofun)
      (h.done_ne (by rw [hcaller]; exact nofun))

theorem Attended.step {s : Source} (h : Attended s) {a : Act} (hprompt : Prompt s a) :
    Attended (s.step a) := by
  cases a with
  | start =>
      simp only [Source.step]
      split
      · rename_i hidle
        have hwaiting : s.caller ≠ .waiting := by rw [hidle]; exact nofun
        exact attended_of_nil (h.tasks_eq_nil hwaiting fun _ => hprompt hidle)
          (fun hc => h.created (hc.imp_right (Or.elim · nofun nofun))) (Or.elim · nofun nofun)
          (h.done_ne hwaiting)
      · exact h
  | stop =>
      simp only [Source.step]
      split_ifs with hidle htask
      · have hwaiting : s.caller ≠ .waiting := by rw [hidle]; exact nofun
        exact attended_of_nil (h.tasks_eq_nil hwaiting fun _ => htask)
          (fun hc => hc.elim nofun (Or.elim · nofun nofun)) (Or.elim · nofun nofun)
          (h.done_ne hwaiting)
      · have hwaiting : s.caller ≠ .waiting := by rw [hidle]; exact nofun
        have htrue : s.task = true := by simpa using htask
        exact
          { created := fun _ => h.created (Or.inl htrue)
            cleared := (Or.elim · nofun nofun)
            lone := h.lone
            kept := fun _ => Or.inl rfl
            ending := fun _ _ => rfl
            exiting := fun _ => rfl
            given := fun hd => absurd hd (h.done_ne hwaiting) }
      · exact h
  | caller r => exact h.stepCaller hprompt
  | task i r => exact h.stepTask i r

/-- Prompt calls are orderly, whatever the tasks do in between. -/
theorem along_orderly_of_prompt (acts : List Act) (h : Along step Prompt {} acts) :
    Along step Orderly {} acts := by
  have hinitial : Attended {} :=
    attended_of_nil rfl (fun hc => hc.elim nofun (Or.elim · nofun nofun)) (Or.elim · nofun nofun)
      nofun
  have hstep : ∀ (s : Source) (a : Act), Attended s → Prompt s a →
      Orderly s a ∧ Attended (s.step a) :=
    fun _ a hI hP => ⟨hI.orderly a, hI.step hP⟩
  exact h.mono_of_invariant hstep hinitial

/-- `Start` up to its return. -/
def startSteps : List Act :=
  [.start, .caller true, .caller true, .caller true, .caller true]

/-- The task waits for an answer when `Stop` gives up, and the source is started again. -/
def timedOutRun : List Act :=
  startSteps ++ [.task 0 true, .task 0 true, .stop, .caller false, .caller true] ++ startSteps

/-- The task has tested the hub when `Stop` gives up. -/
def lateReportRun : List Act :=
  startSteps ++ [.task 0 true, .task 0 true, .task 0 true, .stop, .caller false, .caller true]

theorem not_safe_timedOut :
    ¬ Safe (run step {} timedOutRun) ∧ ¬ Safe (run step {} lateReportRun) := by
  constructor
  · intro h
    have htwo : (run step {} timedOutRun).tasks.length = 2 := by decide
    have hle := h.atMostOne
    omega
  · intro h
    have hreports : Reports (run step {} lateReportRun) (.task 0 true) := by
      simp only [Reports]
      decide
    exact h.silent (by decide) _ hreports

end Source

end PollTask

end BtClock
