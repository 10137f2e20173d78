import Mathlib.Data.Int.Notation
import BtClock.Reading.Chunks

/-!
# Reading and writing of the proxy transport

The loops around `send` and `recv`.  A reply of known length is read to its last byte and no
further; a reply whose end is searched is read until the parser has it, and what was read behind
its end is gone.
-/

namespace BtClock

namespace Proxy

open Reading

inductive Errno
  | eintr
  | other
  deriving DecidableEq, Repr

/-- What `send` does: it takes some bytes, or fails. -/
inductive Send
  | took (bytes : ℕ)
  | failed (errno : Errno)
  deriving DecidableEq, Repr

abbrev Reads := List (Read UInt8 Errno)

/-- What is to come on the connection to the proxy, and what was sent. -/
structure Socket where
  reads : Reads
  sends : List Send
  sent : List UInt8 := []
  deriving DecidableEq, Repr

/-- The loop of `SendAll`.  A `send` which takes nothing fails as an error does. -/
def sendLoop : List UInt8 → List Send → Option (List Send)
  | [], ss => some ss
  | _ :: _, [] => none
  | b :: bs, .took n :: ss => if n = 0 then none else sendLoop ((b :: bs).drop n) ss
  | b :: bs, .failed .eintr :: ss => sendLoop (b :: bs) ss
  | _ :: _, .failed .other :: _ => none

def Socket.sendAll (s : Socket) (data : List UInt8) : Option Socket :=
  (sendLoop data s.sends).map fun sends => { s with sends := sends, sent := s.sent ++ data }

/-- The loop of `RecvAll`, with `want` bytes to go. -/
def recvLoop (want : ℕ) : Reads → Option (List UInt8 × Reads)
  | [] => if want = 0 then some ([], []) else none
  | .got bytes :: rs =>
      if want = 0 then some ([], .got bytes :: rs)
      else if bytes = [] then none
      else if want ≤ bytes.length then some (bytes.take want, putBack (bytes.drop want) rs)
      else (recvLoop (want - bytes.length) rs).map fun (more, rs) => (bytes ++ more, rs)
  | .failed errno :: rs =>
      if want = 0 then some ([], .failed errno :: rs)
      else if errno = .eintr then recvLoop want rs
      else none

/-- The loop of `RecvAll` in terms of `recv`. -/
theorem recvLoop_eq {want : ℕ} (hwant : want ≠ 0) (rs : Reads) :
    recvLoop want rs =
      match recv want rs with
      | (.got [], _) => none
      | (.got (b :: bs), rs) =>
          (recvLoop (want - (b :: bs).length) rs).map fun (more, rs) => (b :: bs ++ more, rs)
      | (.failed .eintr, rs) => recvLoop want rs
      | (.failed .other, _) => none := by
  match rs with
  | [] => simp [recvLoop, recv, hwant]
  | .failed .eintr :: rs => simp [recvLoop, recv, hwant]
  | .failed .other :: rs => simp [recvLoop, recv, hwant]
  | .got [] :: rs => simp [recvLoop, recv, hwant]
  | .got (b :: bs) :: rs =>
      obtain ⟨want, rfl⟩ := Nat.exists_eq_succ_of_ne_zero hwant
      rw [recvLoop, recv, if_neg hwant, if_neg (List.cons_ne_nil b bs)]
      split_ifs with hle
      · have htaken : (bs.take want).length = want :=
          List.length_take_of_le (Nat.le_of_succ_le_succ hle)
        simp only [List.take_succ_cons, List.length_cons, htaken, Nat.sub_self]
        cases putBack (List.drop want.succ (b :: bs)) rs with
        | nil => simp [recvLoop]
        | cons r rs => cases r <;> simp [recvLoop]
      · have hlt : (b :: bs).length ≤ want := by simp only [List.length_cons] at hle ⊢; omega
        rw [List.drop_of_length_le (Nat.le_succ_of_le hlt), putBack_nil, List.take_succ_cons,
          List.take_of_length_le (by simp only [List.length_cons] at hlt; omega)]

def Socket.recvAll (s : Socket) (want : ℕ) : Option (List UInt8 × Socket) :=
  (recvLoop want s.reads).map fun (bytes, rs) => (bytes, { s with reads := rs })

/-- The loop of `RecvUntilParsed`, behind the bytes which it has: the status, the bytes which the
parser consumed, and the reads to come. -/
def parseLoop (cap : ℕ) (parse : List UInt8 → ℤ × ℕ) : List UInt8 → Reads → ℤ × ℕ × Reads
  | _, [] => (-1, 0, [])
  | held, .got bytes :: rs =>
      let room := cap - held.length
      if room = 0 then (-1, 0, .got bytes :: rs)
      else if bytes = [] then (-1, 0, rs)
      else
        let buf := held ++ bytes.take room
        let (status, consumed) := parse buf
        if status = -1 then
          if bytes.length ≤ room then parseLoop cap parse buf rs
          else (-1, consumed, putBack (bytes.drop room) rs)
        else (status, consumed, putBack (bytes.drop room) rs)
  | held, .failed errno :: rs =>
      (-1, 0, if held.length < cap then rs else .failed errno :: rs)

def Socket.recvUntilParsed (s : Socket) (cap : ℕ) (parse : List UInt8 → ℤ × ℕ) :
    ℤ × ℕ × Socket :=
  let (status, consumed, rs) := parseLoop cap parse [] s.reads
  (status, consumed, { s with reads := rs })

/-! ### A reply of known length -/

/-- What `RecvAll` reads is the front of the stream, and the rest of it is still to come. -/
theorem append_pending_recvLoop {want : ℕ} {rs rs' : Reads} {bytes : List UInt8}
    (h : recvLoop want rs = some (bytes, rs')) :
    bytes ++ pending rs' = pending rs ∧ bytes.length = want := by
  induction rs generalizing want bytes with
  | nil =>
      rw [recvLoop] at h
      split_ifs at h with hwant
      cases h
      exact ⟨rfl, hwant.symm⟩
  | cons r rs ih =>
      cases r with
      | got bs =>
          rw [recvLoop] at h
          split_ifs at h with hwant hempty hle
          · cases h
            exact ⟨rfl, hwant.symm⟩
          · cases h
            rw [pending_putBack, ← List.append_assoc, List.take_append_drop]
            exact ⟨rfl, List.length_take_of_le hle⟩
          · obtain ⟨⟨more, rs''⟩, hmore, heq⟩ := Option.map_eq_some_iff.mp h
            cases heq
            obtain ⟨hpending, hlength⟩ := ih hmore
            rw [List.append_assoc, hpending, List.length_append, hlength]
            exact ⟨rfl, by omega⟩
      | failed errno =>
          rw [recvLoop] at h
          split_ifs at h with hwant heintr
          · cases h
            exact ⟨rfl, hwant.symm⟩
          · exact ih h

theorem Socket.append_pending_recvAll {s s' : Socket} {want : ℕ} {bytes : List UInt8}
    (h : s.recvAll want = some (bytes, s')) :
    bytes ++ pending s'.reads = pending s.reads ∧ bytes.length = want ∧ s'.sent = s.sent := by
  obtain ⟨⟨bs, rs⟩, hloop, heq⟩ := Option.map_eq_some_iff.mp h
  cases heq
  obtain ⟨happend, hlength⟩ := append_pending_recvLoop hloop
  exact ⟨happend, hlength, rfl⟩

theorem Socket.pending_recvAll {s s' : Socket} {want : ℕ} {bytes front back : List UInt8}
    (h : s.recvAll want = some (bytes, s')) (hpending : pending s.reads = front ++ back)
    (hfront : front.length = want) : bytes = front ∧ pending s'.reads = back := by
  obtain ⟨happend, hlength, -⟩ := Socket.append_pending_recvAll h
  rw [hpending] at happend
  exact List.append_inj happend (hlength.trans hfront.symm)

theorem Socket.reads_sendAll {s s' : Socket} {data : List UInt8} (h : s.sendAll data = some s') :
    s'.reads = s.reads := by
  obtain ⟨sends, -, heq⟩ := Option.map_eq_some_iff.mp h
  rw [← heq]

theorem Socket.sent_sendAll {s s' : Socket} {data : List UInt8} (h : s.sendAll data = some s') :
    s'.sent = s.sent ++ data := by
  obtain ⟨sends, -, heq⟩ := Option.map_eq_some_iff.mp h
  rw [← heq]

/-- From a stream which comes in one piece a front of it is read. -/
theorem Socket.exists_recvAll {s : Socket} (want : ℕ) {front back : List UInt8}
    (hreads : s.reads = putBack (front ++ back) []) (hfront : front.length = want) :
    ∃ s', s.recvAll want = some (front, s') ∧ s'.reads = putBack back [] ∧ s'.sends = s.sends := by
  refine ⟨{ s with reads := putBack back [] }, ?_, rfl, rfl⟩
  rw [Socket.recvAll, hreads]
  cases front with
  | nil =>
      rw [List.length_nil] at hfront
      cases back with
      | nil => simp [putBack, recvLoop, ← hfront]
      | cons b back => simp [putBack, recvLoop, ← hfront]
  | cons a front =>
      have hwant : want ≠ 0 := by rw [← hfront]; exact Nat.succ_ne_zero _
      have hle : want ≤ (a :: front ++ back).length := by
        rw [List.length_append, hfront]
        exact Nat.le_add_right want _
      have hne : a :: front ++ back ≠ [] := List.cons_ne_nil a _
      rw [putBack, if_neg hne, recvLoop, if_neg hwant, if_neg hne, if_pos hle, ← hfront,
        List.take_left, List.drop_left, Option.map_some]

/-- A `send` with room for all of it takes it at once. -/
theorem Socket.exists_sendAll {s : Socket} {data : List UInt8} {n : ℕ} {ss : List Send}
    (hsends : s.sends = .took n :: ss) (hdata : data ≠ []) (hle : data.length ≤ n) :
    ∃ s', s.sendAll data = some s' ∧ s'.reads = s.reads ∧ s'.sends = ss := by
  refine ⟨{ s with sends := ss, sent := s.sent ++ data }, ?_, rfl, rfl⟩
  obtain ⟨b, bs, rfl⟩ := List.exists_cons_of_ne_nil hdata
  have hn : n ≠ 0 := by
    rw [List.length_cons] at hle
    omega
  rw [Socket.sendAll, hsends, sendLoop, if_neg hn, List.drop_of_length_le hle, sendLoop,
    Option.map_some]

/-! ### The bytes which are delivered -/

/-- The bytes which come before the peer closes or a read fails for good. -/
def delivered : Reads → List UInt8
  | [] => []
  | .got [] :: _ => []
  | .got (b :: bs) :: rs => b :: bs ++ delivered rs
  | .failed .eintr :: rs => delivered rs
  | .failed .other :: _ => []

theorem delivered_putBack (items : List UInt8) (rs : Reads) :
    delivered (putBack items rs) = items ++ delivered rs := by
  cases items with
  | nil => rw [putBack_nil, List.nil_append]
  | cons b bs => rw [putBack, if_neg (List.cons_ne_nil b bs), delivered]

theorem recvLoop_zero (rs : Reads) : recvLoop 0 rs = some ([], rs) := by
  cases rs with
  | nil => exact if_pos rfl
  | cons r rs =>
      cases r with
      | got bytes => exact if_pos rfl
      | failed errno => exact if_pos rfl

/-- What is asked for is read iff so much is delivered. -/
theorem recvLoop_eq_delivered (want : ℕ) (rs : Reads) :
    (want ≤ (delivered rs).length → ∃ rs', recvLoop want rs =
        some ((delivered rs).take want, rs') ∧ delivered rs' = (delivered rs).drop want) ∧
      ((delivered rs).length < want → recvLoop want rs = none) := by
  induction rs generalizing want with
  | nil =>
      rw [delivered, recvLoop]
      constructor
      · intro hle
        have hzero : want = 0 := Nat.le_zero.mp hle
        exact ⟨[], by rw [if_pos hzero, List.take_nil], by rw [delivered, List.drop_nil]⟩
      · exact fun hlt => if_neg (Nat.pos_iff_ne_zero.mp hlt)
  | cons r rs ih =>
      by_cases hzero : want = 0
      · refine ⟨fun _ => ⟨r :: rs, ?_, ?_⟩, fun hlt => by omega⟩
        · rw [hzero, recvLoop_zero, List.take_zero]
        · rw [hzero, List.drop_zero]
      · match r with
        | .got [] =>
            rw [delivered, recvLoop, if_neg hzero, if_pos rfl]
            exact ⟨fun hle => absurd (Nat.le_zero.mp hle) hzero, fun _ => rfl⟩
        | .failed .other =>
            rw [delivered, recvLoop, if_neg hzero, if_neg (by decide)]
            exact ⟨fun hle => absurd (Nat.le_zero.mp hle) hzero, fun _ => rfl⟩
        | .failed .eintr =>
            rw [delivered, recvLoop, if_neg hzero, if_pos rfl]
            exact ih want
        | .got (b :: bs) =>
            rw [delivered, recvLoop, if_neg hzero, if_neg (List.cons_ne_nil b bs)]
            by_cases hle : want ≤ (b :: bs).length
            · refine ⟨fun _ => ⟨putBack ((b :: bs).drop want) rs, ?_, ?_⟩, fun hlt => ?_⟩
              · rw [if_pos hle, List.take_append_of_le_length hle]
              · rw [delivered_putBack, List.drop_append_of_le_length hle]
              · rw [List.length_append] at hlt
                omega
            · obtain ⟨hread, hfails⟩ := ih (want - (b :: bs).length)
              have hge : (b :: bs).length ≤ want := Nat.le_of_not_le hle
              rw [if_neg hle, List.length_append]
              constructor
              · intro hall
                obtain ⟨rs', hloop, hrest⟩ := hread (by omega)
                refine ⟨rs', ?_, ?_⟩
                · rw [hloop, Option.map_some, List.take_append, List.take_of_length_le hge]
                · rw [hrest, List.drop_append, List.drop_of_length_le hge, List.nil_append]
              · intro hlt
                rw [hfails (by omega), Option.map_none]

theorem Socket.recvAll_of_le {s : Socket} (want : ℕ)
    (hle : want ≤ (delivered s.reads).length) :
    ∃ s', s.recvAll want = some ((delivered s.reads).take want, s') ∧
      delivered s'.reads = (delivered s.reads).drop want := by
  obtain ⟨rs', hloop, hrest⟩ := (recvLoop_eq_delivered want s.reads).1 hle
  exact ⟨{ s with reads := rs' }, by rw [Socket.recvAll, hloop, Option.map_some], hrest⟩

theorem Socket.recvAll_of_lt {s : Socket} {want : ℕ}
    (hlt : (delivered s.reads).length < want) : s.recvAll want = none := by
  rw [Socket.recvAll, (recvLoop_eq_delivered want s.reads).2 hlt, Option.map_none]

/-! ### A reply whose end is searched -/

/-- The parser asks for more on every front of the reply, and finds its end whatever follows. -/
structure ParsesReply (parse : List UInt8 → ℤ × ℕ) (reply : List UInt8) (status : ℤ) : Prop where
  more : ∀ front back, reply = front ++ back → back ≠ [] → (parse front).1 = -1
  done : ∀ back, parse (reply ++ back) = (status, reply.length)
  status_ne : status ≠ -1

section

variable {cap : ℕ} {parse : List UInt8 → ℤ × ℕ} {reply payload held bytes : List UInt8}
  {status : ℤ} {rs : Reads}

/-- Where the next piece ends in front of the reply's end. -/
theorem parseLoop_more (hparse : ParsesReply parse reply status) (hbytes : bytes ≠ [])
    {back : List UInt8} (hreply : reply = held ++ bytes ++ back) (hback : back ≠ []) :
    parseLoop cap parse held (.got bytes :: rs) = parseLoop cap parse (held ++ bytes) rs ∨
      (parseLoop cap parse held (.got bytes :: rs)).1 = -1 ∧ cap < reply.length := by
  have hpos := List.length_pos_iff.mpr hback
  have hlength : reply.length = held.length + bytes.length + back.length := by
    rw [hreply, List.length_append, List.length_append]
  rw [parseLoop]
  simp only [hbytes, if_false]
  by_cases hroom : bytes.length ≤ cap - held.length
  · have hpos := List.length_pos_iff.mpr hbytes
    have hmore := hparse.more (held ++ bytes) back hreply hback
    refine Or.inl ?_
    rw [if_neg (by omega), List.take_of_length_le hroom, if_pos hmore, if_pos hroom]
  · refine Or.inr ⟨?_, by omega⟩
    split_ifs with hfull hmore
    · rfl
    · rfl
    · refine absurd (hparse.more _ (bytes.drop (cap - held.length) ++ back) ?_ ?_) hmore
      · rw [hreply, ← List.append_assoc, List.append_assoc held (bytes.take _),
          List.take_append_drop]
      · simp [hback]

/-- Where the next piece holds the reply's end, but there is no room for the whole reply. -/
theorem parseLoop_short (hparse : ParsesReply parse reply status) {front extra : List UInt8}
    (hreply : reply = held ++ front) (hfront : front ≠ []) (hcap : cap < reply.length) :
    (parseLoop cap parse held (.got (front ++ extra) :: rs)).1 = -1 := by
  have hlength : reply.length = held.length + front.length := by
    rw [hreply, List.length_append]
  simp only [parseLoop, List.append_eq_nil_iff, hfront, false_and, if_false]
  by_cases hroom : cap - held.length = 0
  · rw [if_pos hroom]
  · have hlong : ¬(front ++ extra).length ≤ cap - held.length := by
      rw [List.length_append]; omega
    have hmore : (parse (held ++ (front ++ extra).take (cap - held.length))).1 = -1 := by
      refine hparse.more _ (front.drop (cap - held.length)) ?_ ?_
      · rw [List.take_append_of_le_length (by omega), List.append_assoc, List.take_append_drop,
          hreply]
      · rw [Ne, List.drop_eq_nil_iff]; omega
    rw [if_neg hroom, if_pos hmore, if_neg hlong]

/-- Where the next piece holds the reply's end: what it brings of the payload is gone, as far as
there is room for it. -/
theorem parseLoop_done (hparse : ParsesReply parse reply status) {front extra : List UInt8}
    (hreply : reply = held ++ front) (hfront : front ≠ []) (hcap : reply.length ≤ cap) :
    (parseLoop cap parse held (.got (front ++ extra) :: rs)).1 = status ∧
      pending (parseLoop cap parse held (.got (front ++ extra) :: rs)).2.2 =
        extra.drop (cap - reply.length) ++ pending rs := by
  have hpos := List.length_pos_iff.mpr hfront
  have hlength : reply.length = held.length + front.length := by
    rw [hreply, List.length_append]
  have hroom : cap - held.length = front.length + (cap - reply.length) := by omega
  have hbuf : held ++ (front ++ extra).take (cap - held.length) =
      reply ++ extra.take (cap - reply.length) := by
    rw [hroom, List.take_length_add_append, hreply, List.append_assoc]
  simp only [parseLoop, List.append_eq_nil_iff, hfront, false_and, if_false]
  rw [if_neg (by omega), hbuf, hparse.done, if_neg hparse.status_ne, pending_putBack, hroom,
    List.drop_length_add_append]
  exact ⟨rfl, rfl⟩

/-- The reader fails or gives the status, and loses nothing of the payload iff `kept`. -/
def Outcome (status : ℤ) (payload : List UInt8) (r : ℤ × ℕ × Reads) (kept : Prop) : Prop :=
  (r.1 = -1 ∨ r.1 = status) ∧ (r.1 = -1 ∨ pending r.2.2 = payload ↔ kept)

theorem outcome_of_failed {r : ℤ × ℕ × Reads} {kept : Prop} (h : r.1 = -1) (hkept : kept) :
    Outcome status payload r kept :=
  ⟨Or.inl h, iff_of_true (Or.inl h) hkept⟩

/-- The piece with the reply's last byte loses nothing iff it ends there, or has no room. -/
theorem outcome_done (hparse : ParsesReply parse reply status) {front extra : List UInt8}
    (hreply : reply = held ++ front) (hfront : front ≠ []) :
    Outcome status (extra ++ pending rs) (parseLoop cap parse held (.got (front ++ extra) :: rs))
      (cap ≤ reply.length ∨ extra = []) := by
  by_cases hcap : cap < reply.length
  · exact outcome_of_failed (parseLoop_short hparse hreply hfront hcap)
      (Or.inl (Nat.le_of_lt hcap))
  · obtain ⟨hstatus, hrest⟩ := parseLoop_done hparse hreply hfront (Nat.le_of_not_lt hcap)
    refine ⟨Or.inr hstatus, ?_⟩
    rw [hstatus, hrest, List.append_left_inj, or_iff_right hparse.status_ne]
    constructor
    · intro h
      have hdropped := congrArg List.length h
      rw [List.length_drop] at hdropped
      by_cases hextra : extra = []
      · exact Or.inr hextra
      · have hpos := List.length_pos_iff.mpr hextra
        exact Or.inl (by omega)
    · rintro (h | rfl)
      · rw [Nat.sub_eq_zero_of_le h]
        rfl
      · exact List.drop_nil

/-- In the piece which ends the reply only what stands behind the reply matters. -/
theorem nothing_behind_iff {tail extra : List UInt8} (hmore : ¬(tail ++ extra).length < tail.length)
    (P : Prop) :
    P ∨ extra = [] ↔
      (tail ++ extra).length < tail.length ∧
          BrokenBefore (tail.length - (tail ++ extra).length) rs ∨
        P ∨ (tail ++ extra).length ≤ tail.length ∧
          CutAt (tail.length - (tail ++ extra).length) rs := by
  have hextra : (tail ++ extra).length ≤ tail.length ↔ extra = [] := by
    rw [List.length_append, ← List.length_eq_zero_iff]
    omega
  rw [hextra, Nat.sub_eq_zero_of_le (Nat.le_of_not_lt hmore), and_iff_left (cutAt_zero rs)]
  exact ⟨Or.inr, fun h => h.resolve_left fun hlt => hmore hlt.1⟩

/-- The reader loses nothing of the payload iff the piece with the reply's last byte ends with
it, or there is no room for more, or the reply never comes in full. -/
theorem parseLoop_spec (hparse : ParsesReply parse reply status)
    (hlt : held.length < reply.length) (hpending : held ++ pending rs = reply ++ payload) :
    Outcome status payload (parseLoop cap parse held rs)
      (BrokenBefore (reply.length - held.length) rs ∨ cap ≤ reply.length ∨
        CutAt (reply.length - held.length) rs) := by
  have hn : 0 < reply.length - held.length := Nat.sub_pos_of_lt hlt
  induction rs generalizing held with
  | nil => exact outcome_of_failed rfl (Or.inl hn)
  | cons r rs ih =>
      cases r with
      | failed errno => exact outcome_of_failed rfl (Or.inl hn)
      | got bytes =>
          by_cases hbytes : bytes = []
          · refine outcome_of_failed ?_ (Or.inl ⟨hn, Or.inl hbytes⟩)
            rw [parseLoop, if_pos hbytes]
            split_ifs <;> rfl
          obtain ⟨tail, hreply, hbehind⟩ :=
            exists_eq_append_of_length_le hpending (Nat.le_of_lt hlt)
          have hlength : reply.length - held.length = tail.length := by
            rw [hreply, List.length_append, Nat.add_sub_cancel_left]
          rw [hlength] at hn ⊢
          rw [brokenBefore_got hn hbytes, cutAt_got hn]
          rw [pending_got] at hbehind
          by_cases hmore : bytes.length < tail.length
          · -- The reply goes on behind this piece.
            obtain ⟨back, rfl, hrest⟩ :=
              exists_eq_append_of_length_le hbehind (Nat.le_of_lt hmore)
            have hback : back ≠ [] := by
              rintro rfl
              simp at hmore
            rw [← List.append_assoc] at hreply
            rcases parseLoop_more hparse hbytes hreply hback with hloop | ⟨hloop, hcap⟩
            · rw [hloop]
              have hlength' : reply.length - (held ++ bytes).length = back.length := by
                rw [hreply, List.length_append, Nat.add_sub_cancel_left]
              have hpos := List.length_pos_iff.mpr hback
              have hshort : (held ++ bytes).length < reply.length := by omega
              have hsplit : held ++ bytes ++ pending rs = reply ++ payload := by
                simp only [hreply, hrest, List.append_assoc]
              have hih := ih hshort hsplit (hlength' ▸ hpos)
              rw [hlength'] at hih
              rw [and_iff_right hmore, and_iff_right (Nat.le_of_lt hmore), List.length_append,
                Nat.add_sub_cancel_left]
              exact hih
            · exact outcome_of_failed hloop (Or.inr (Or.inl (Nat.le_of_lt hcap)))
          · -- The reply ends in this piece.
            obtain ⟨extra, rfl, hpayload⟩ :=
              exists_eq_append_of_length_le hbehind.symm (Nat.le_of_not_lt hmore)
            rw [← nothing_behind_iff hmore, hpayload]
            exact outcome_done hparse hreply (List.length_pos_iff.mp hn)

end

end Proxy

end BtClock
