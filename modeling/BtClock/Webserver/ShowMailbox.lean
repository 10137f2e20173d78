import BtClock.Transition.Run
import BtClock.Webserver.ShowRequests

/-!
# The cells of a request on their way to the screen

The cells of a request lie in one slot beside the command queue.  The HTTP task stores them and
posts the command, and the main task pops the command and takes what is in the slot then.
-/

namespace BtClock

namespace ShowText

open Settings Auth Webserver Transition

/-- The cells of a request, with its number. -/
abbrev Numbered := ℕ × List Cell

inductive ShowRequest
  | showText (req : HttpRequest)
  | showCustom (req : HttpRequest)

def ShowRequest.cells (cfg : ShowConfig) (prefs : Prefs) :
    ShowRequest → Except Reply (List Cell)
  | .showText req => admitShow prefs req (showTextPayload cfg req)
  | .showCustom req => admitShow prefs req (showCustomPayload cfg req)

/-- The HTTP task is at `posting` when it has stored the cells of a request and not yet answered
it, and the main task is `taking` behind a popped command.  The requests which were answered are
kept in `accepted` and `refused`, and what `SetCustomCells` was called with in `handed`. -/
structure ShowTasks where
  server : ControlServer Numbered := {}
  next : ℕ := 0
  posting : Option Numbered := none
  taking : Bool := false
  restarted : Bool := false
  handed : List Numbered := []
  accepted : List Numbered := []
  refused : List ℕ := []
  deriving DecidableEq, Repr

inductive ShowEvent
  | request (r : ShowRequest)
  | post
  | command (cmd : Kind)
  | pop
  | take

variable (cfg : ShowConfig) (prefs : Prefs)

namespace ShowTasks

/-- A request is parsed and its cells are stored. -/
def receive (r : ShowRequest) (s : ShowTasks) : ShowTasks :=
  match s.posting with
  | some _ => s
  | none =>
      match r.cells cfg prefs with
      | .error _ => { s with next := s.next + 1, refused := s.refused ++ [s.next] }
      | .ok cells =>
          { s with
            next := s.next + 1
            server := storePending (s.next, cells) s.server
            posting := some (s.next, cells) }

/-- The command is posted, and the request is answered. -/
def post (s : ShowTasks) : ShowTasks :=
  match s.posting with
  | none => s
  | some p =>
      { s with
        server := (postCommand .kShowCustom s.server).2
        posting := none
        accepted := s.accepted ++ [p] }

/-- The main task comes to the next command. -/
def pop (s : ShowTasks) : ShowTasks :=
  if s.taking then s
  else
    match tryPopCommand s.server with
    | (some .kShowCustom, server) => { s with server := server, taking := true }
    | (some .kRestart, server) => { s with server := server, restarted := true }
    | (_, server) => { s with server := server }

/-- The main task takes the cells and hands them over. -/
def take (s : ShowTasks) : ShowTasks :=
  if s.taking then
    match takePendingCustomCells s.server with
    | (some p, server) => { s with server := server, taking := false, handed := s.handed ++ [p] }
    | (none, server) => { s with server := server, taking := false }
  else s

def step (s : ShowTasks) (e : ShowEvent) : ShowTasks :=
  if s.restarted then s
  else
    match e with
    | .request r => s.receive cfg prefs r
    | .post => s.post
    | .command cmd => { s with server := (postCommand cmd s.server).2 }
    | .pop => s.pop
    | .take => s.take

def boot : ShowTasks :=
  {}

/-! ### What is shown in the end -/

/-- All commands are drained, and no request is being answered. -/
def Drained (s : ShowTasks) : Prop :=
  s.server.queue = [] ∧ s.posting = none ∧ s.taking = false

structure ShowsAccepted (s : ShowTasks) : Prop where
  last : s.Drained → s.handed.getLast? = s.accepted.getLast?
  refused : ∀ p ∈ s.handed, p.1 ∉ s.refused

/-- A command to show cells is on its way. -/
def Announced (s : ShowTasks) : Prop :=
  .kShowCustom ∈ s.server.queue ∨ s.taking = true

/-- Where the command of a request finds no room, its cells were taken already or an earlier
command is on its way to them. -/
def FindsCommand (s : ShowTasks) : ShowEvent → Prop
  | .post => s.posting = none ∨ s.server.queue.length < kQueueLength ∨
      s.server.pendingCustom = none ∨ s.Announced
  | _ => True

instance (s : ShowTasks) : Decidable s.Announced :=
  inferInstanceAs (Decidable (_ ∨ _))

instance decidableFindsCommand (s : ShowTasks) : ∀ e, Decidable (s.FindsCommand e)
  | .post => inferInstanceAs (Decidable (_ ∨ _ ∨ _ ∨ s.Announced))
  | .request _ => isTrue trivial
  | .command _ => isTrue trivial
  | .pop => isTrue trivial
  | .take => isTrue trivial

/-- The last request which stored its cells and was not refused. -/
def latest (s : ShowTasks) : Option Numbered :=
  match s.posting with
  | some p => some p
  | none => s.accepted.getLast?

/-- What is in the slot is the latest request and will be taken, and an empty slot means that the
latest request was handed over. -/
structure Delivering (s : ShowTasks) : Prop where
  slot : ∀ p, s.server.pendingCustom = some p → s.latest = some p
  announced : s.server.pendingCustom ≠ none → s.posting = none → s.Announced
  empty : s.server.pendingCustom = none → s.handed.getLast? = s.latest

/-- The requests whose cells were stored are not among those which were refused. -/
structure Told (s : ShowTasks) : Prop where
  refused : ∀ n ∈ s.refused, n < s.next
  handed : ∀ p ∈ s.handed, p.1 < s.next ∧ p.1 ∉ s.refused
  pending : ∀ p, s.server.pendingCustom = some p → p.1 < s.next ∧ p.1 ∉ s.refused

variable {cfg prefs} {s : ShowTasks}

theorem mem_queue_postCommand {α : Type*} {cmd : Kind} {s : ControlServer α} {k : Kind}
    (h : k ∈ s.queue) : k ∈ (postCommand cmd s).2.queue := by
  rw [postCommand]
  split_ifs
  · exact List.mem_append_left _ h
  · exact h

theorem Delivering.receive (h : s.Delivering) (r : ShowRequest) :
    (s.receive cfg prefs r).Delivering := by
  unfold ShowTasks.receive
  split
  · exact h
  · rename_i hposting
    split
    · exact ⟨h.slot, h.announced, h.empty⟩
    · exact ⟨fun p hp => hp, fun _ hnone => absurd hnone (Option.some_ne_none _),
        fun hnone => absurd hnone (Option.some_ne_none _)⟩

theorem Delivering.post (h : s.Delivering) (hfinds : s.FindsCommand .post) :
    s.post.Delivering := by
  unfold ShowTasks.post
  split
  · exact h
  · rename_i p hposting
    have hlatest : s.latest = some p := by
      rw [latest, hposting]
    refine ⟨fun q hq => ?_, fun hpending _ => ?_, fun hnone => ?_⟩
    · rw [pendingCustom_postCommand] at hq
      rw [latest, List.getLast?_concat, ← hlatest]
      exact h.slot q hq
    · rw [pendingCustom_postCommand] at hpending
      by_cases hroom : s.server.queue.length < kQueueLength
      · refine Or.inl ?_
        change Kind.kShowCustom ∈ (postCommand .kShowCustom s.server).2.queue
        rw [postCommand, if_pos hroom]
        exact List.mem_append_right _ List.mem_cons_self
      · rcases hfinds with hidle | hroom' | hnone | hannounced
        · exact absurd (hposting.symm.trans hidle) (Option.some_ne_none p)
        · exact absurd hroom' hroom
        · exact absurd hnone hpending
        · exact hannounced.imp_left mem_queue_postCommand
    · rw [pendingCustom_postCommand] at hnone
      rw [latest, List.getLast?_concat, ← hlatest]
      exact h.empty hnone

/-- The two steps of the HTTP task are what its handler does. -/
theorem server_post_receive (hidle : s.posting = none) (r : ShowRequest) :
    (s.receive cfg prefs r).post.server =
      match r.cells cfg prefs with
      | .error _ => s.server
      | .ok cells => (postCommand .kShowCustom (storePending (s.next, cells) s.server)).2 := by
  rw [ShowTasks.receive, hidle]
  cases r.cells cfg prefs with
  | error reply => simp only [ShowTasks.post]
  | ok cells => rfl

theorem Delivering.command (h : s.Delivering) (cmd : Kind) :
    Delivering { s with server := (postCommand cmd s.server).2 } := by
  refine ⟨fun p hp => ?_, fun hpending hidle => ?_, fun hnone => ?_⟩
  · rw [pendingCustom_postCommand] at hp
    exact h.slot p hp
  · rw [pendingCustom_postCommand] at hpending
    exact (h.announced hpending hidle).imp_left mem_queue_postCommand
  · rw [pendingCustom_postCommand] at hnone
    exact h.empty hnone

/-- A popped command which shows nothing announces nothing. -/
theorem Delivering.popOther (h : s.Delivering) {cmd : Kind} {queue : List Kind}
    (hqueue : s.server.queue = cmd :: queue) (hcmd : cmd ≠ .kShowCustom) (restarted : Bool) :
    Delivering { s with server := { s.server with queue := queue }, restarted := restarted } := by
  refine ⟨h.slot, fun hpending hidle => ?_, h.empty⟩
  refine (h.announced hpending hidle).imp_left fun hmem => ?_
  rw [hqueue] at hmem
  exact (List.mem_cons.mp hmem).resolve_left hcmd.symm

theorem Delivering.pop (h : s.Delivering) : s.pop.Delivering := by
  unfold ShowTasks.pop tryPopCommand
  split_ifs with htaking
  · exact h
  · cases hqueue : s.server.queue with
    | nil => exact ⟨h.slot, h.announced, h.empty⟩
    | cons cmd queue =>
        cases cmd
        case kShowCustom => exact ⟨h.slot, fun _ _ => Or.inr rfl, h.empty⟩
        all_goals exact h.popOther hqueue (by decide) _

theorem Delivering.take (h : s.Delivering) : s.take.Delivering := by
  unfold ShowTasks.take takePendingCustomCells
  split_ifs with htaking
  · cases hpending : s.server.pendingCustom with
    | none =>
        refine ⟨fun p hp => ?_, fun hp => absurd rfl hp, fun _ => h.empty hpending⟩
        cases hp
    | some p =>
        refine ⟨fun p hp => ?_, fun hp => absurd rfl hp, fun _ => ?_⟩
        · cases hp
        · change (s.handed ++ [p]).getLast? = s.latest
          rw [List.getLast?_concat, h.slot p hpending]
  · exact h

/-- A step which finds its command keeps the cells on their way. -/
theorem Delivering.step (h : s.Delivering) {e : ShowEvent} (hfinds : s.FindsCommand e) :
    (step cfg prefs s e).Delivering := by
  unfold ShowTasks.step
  split_ifs
  · exact h
  · cases e with
    | request r => exact h.receive r
    | post => exact h.post hfinds
    | command cmd => exact h.command cmd
    | pop => exact h.pop
    | take => exact h.take

theorem Delivering.last (h : s.Delivering) (hdrained : s.Drained) :
    s.handed.getLast? = s.accepted.getLast? := by
  obtain ⟨hqueue, hidle, htaking⟩ := hdrained
  have hnone : s.server.pendingCustom = none := by
    by_contra hpending
    rcases h.announced hpending hidle with hmem | hyes
    · rw [hqueue] at hmem
      cases hmem
    · rw [htaking] at hyes
      cases hyes
  rw [h.empty hnone, latest, hidle]

/-- What the numbers tell does not depend on the queue. -/
theorem Told.of_server (h : s.Told) {t : ShowTasks} (hnext : t.next = s.next)
    (hrefused : t.refused = s.refused) (hhanded : t.handed = s.handed)
    (hpending : t.server.pendingCustom = s.server.pendingCustom) : t.Told := by
  refine ⟨?_, ?_, ?_⟩
  · rw [hrefused, hnext]
    exact h.refused
  · rw [hrefused, hnext, hhanded]
    exact h.handed
  · rw [hrefused, hnext, hpending]
    exact h.pending

theorem notMem_refused_next {p : Numbered} (hp : p.1 < s.next ∧ p.1 ∉ s.refused) :
    p.1 < s.next + 1 ∧ p.1 ∉ s.refused ++ [s.next] := by
  refine ⟨Nat.lt_succ_of_lt hp.1, fun hmem => ?_⟩
  rcases List.mem_append.mp hmem with hmem | hmem
  · exact hp.2 hmem
  · exact absurd (List.mem_singleton.mp hmem) (Nat.ne_of_lt hp.1)

theorem Told.receive (h : s.Told) (r : ShowRequest) : (s.receive cfg prefs r).Told := by
  unfold ShowTasks.receive
  split
  · exact h
  · split
    · refine ⟨fun n hn => ?_, fun p hp => notMem_refused_next (h.handed p hp),
        fun p hp => notMem_refused_next (h.pending p hp)⟩
      rcases List.mem_append.mp hn with hn | hn
      · exact Nat.lt_succ_of_lt (h.refused n hn)
      · rw [List.mem_singleton.mp hn]
        exact Nat.lt_succ_self _
    · refine ⟨fun n hn => Nat.lt_succ_of_lt (h.refused n hn),
        fun p hp => ⟨Nat.lt_succ_of_lt (h.handed p hp).1, (h.handed p hp).2⟩, fun p hp => ?_⟩
      obtain rfl := Option.some.inj hp
      exact ⟨Nat.lt_succ_self _, fun hmem => absurd (h.refused _ hmem) (Nat.lt_irrefl _)⟩

theorem Told.take (h : s.Told) : s.take.Told := by
  unfold ShowTasks.take takePendingCustomCells
  split_ifs with htaking
  · cases hpending : s.server.pendingCustom with
    | none => exact ⟨h.refused, h.handed, nofun⟩
    | some p =>
        refine ⟨h.refused, fun q hq => ?_, nofun⟩
        rcases List.mem_append.mp hq with hq | hq
        · exact h.handed q hq
        · rw [List.mem_singleton.mp hq]
          exact h.pending p hpending
  · exact h

theorem Told.pop (h : s.Told) : s.pop.Told := by
  unfold ShowTasks.pop tryPopCommand
  split_ifs
  · exact h
  · cases hqueue : s.server.queue with
    | nil => exact h.of_server rfl rfl rfl rfl
    | cons cmd queue => cases cmd <;> exact h.of_server rfl rfl rfl rfl

theorem Told.post (h : s.Told) : s.post.Told := by
  unfold ShowTasks.post
  split
  · exact h
  · exact h.of_server rfl rfl rfl (pendingCustom_postCommand _ _)

theorem Told.step (h : s.Told) (e : ShowEvent) : (step cfg prefs s e).Told := by
  unfold ShowTasks.step
  split_ifs
  · exact h
  · cases e with
    | request r => exact h.receive r
    | post => exact h.post
    | command cmd => exact h.of_server rfl rfl rfl (pendingCustom_postCommand _ _)
    | pop => exact h.pop
    | take => exact h.take

theorem delivering_boot : boot.Delivering :=
  ⟨nofun, fun h => absurd rfl h, fun _ => rfl⟩

theorem told_boot : boot.Told :=
  ⟨nofun, nofun, nofun⟩

/-- In a run in which every posted request finds a command, the cells which were handed over last
are those of the last request which was accepted, whenever all commands are drained.  The cells of
a refused request are never handed over. -/
theorem along_showsAccepted (cfg : ShowConfig) (prefs : Prefs) {es : List ShowEvent}
    (h : Along (step cfg prefs) FindsCommand boot es) {front : List ShowEvent}
    (hfront : front <+: es) : (run (step cfg prefs) boot front).ShowsAccepted := by
  obtain ⟨back, rfl⟩ := hfront
  have halong := ((along_append _ _ _ front back).mp h).1
  have hdelivering := halong.invariant (I := Delivering) (fun s e hs he => hs.step he)
    delivering_boot
  have htold : (run (step cfg prefs) boot front).Told :=
    run_invariant (I := Told) (fun s e hs => hs.step e) told_boot front
  exact ⟨hdelivering.last, fun p hp => (htold.handed p hp).2⟩

/-- A request for one cell. -/
def cellRequest (c : Char) : ShowRequest :=
  .showText { query := ['t', '=', c], contentLen := 0, body := [] }

/-- The query is its value behind the name. -/
def valueOnly : ShowConfig where
  parse _ := none
  keyValue query _ := some (query.drop 2)
  numScreens := 1

/-- Two requests, of which the second replaces the cells of the first before they are taken. -/
def twoRequests : List ShowEvent :=
  [.request (cellRequest 'A'), .post, .pop, .request (cellRequest 'B'), .take, .post, .pop, .take]

theorem showsAccepted_twoRequests :
    (run (step valueOnly Prefs.empty) boot twoRequests).ShowsAccepted ∧
      (run (step valueOnly Prefs.empty) boot twoRequests).handed = [(1, [[0x42]])] := by
  have halong : Along (step valueOnly Prefs.empty) FindsCommand boot twoRequests := by
    decide
  exact ⟨along_showsAccepted valueOnly Prefs.empty halong (List.prefix_refl _), by decide⟩

/-- A request behind a full queue of other commands is accepted, and its cells stay where they
are. -/
def fullQueue : List ShowEvent :=
  List.replicate 8 (.command .kFullRefresh) ++ [.request (cellRequest 'A'), .post] ++
    List.replicate 8 .pop

theorem fullQueue_not_showsAccepted :
    (run (step valueOnly Prefs.empty) boot fullQueue).Drained ∧
      (run (step valueOnly Prefs.empty) boot fullQueue).accepted = [(0, [[0x41]])] ∧
      (run (step valueOnly Prefs.empty) boot fullQueue).handed = [] ∧
      ¬ (run (step valueOnly Prefs.empty) boot fullQueue).ShowsAccepted := by
  have haccepted : (run (step valueOnly Prefs.empty) boot fullQueue).accepted =
      [(0, [[0x41]])] := by
    decide
  have hhanded : (run (step valueOnly Prefs.empty) boot fullQueue).handed = [] := by
    decide
  have hdrained : (run (step valueOnly Prefs.empty) boot fullQueue).Drained := by
    refine ⟨by decide, by decide, by decide⟩
  refine ⟨hdrained, haccepted, hhanded, fun h => ?_⟩
  have hlast := h.last hdrained
  rw [haccepted, hhanded] at hlast
  cases hlast

end ShowTasks

end ShowText

end BtClock
