import BtClock.Coding.DnsName
import BtClock.Transition.Join

/-!
# The replies of the captive portal

One buffer serves all datagrams.  A reply is made in place, behind the bytes which the walk over
the name takes for the question.
-/

namespace BtClock

namespace DnsHijack

open Dns Transition

/-- `uint8_t buf[512]` -/
structure Buffer where
  bytes : List UInt8
  size : bytes.length = 512

namespace Buffer

/-- `none` outside the buffer. -/
def get (buf : Buffer) (i : ℕ) : Option UInt8 :=
  buf.bytes[i]?

/-- `none` outside the buffer. -/
def set (buf : Buffer) (i : ℕ) (v : UInt8) : Option Buffer :=
  if i < 512 then some ⟨buf.bytes.set i v, by rw [List.length_set, buf.size]⟩ else none

/-- `buf[p++] = v` for each value. -/
def write (buf : Buffer) (p : ℕ) : List UInt8 → Option Buffer
  | [] => some buf
  | v :: vs => do
      let buf ← buf.set p v
      buf.write (p + 1) vs

/-- `recvfrom`, which cuts a datagram to the size of the buffer. -/
def recvfrom (buf : Buffer) (datagram : List UInt8) : Buffer where
  bytes := datagram.take 512 ++ buf.bytes.drop (datagram.take 512).length
  size := by
    rw [List.length_append, List.length_drop, List.length_take, buf.size]
    omega

end Buffer

/-- The bytes from `buf[2]` to `buf[11]`. -/
def responseHeader : List UInt8 :=
  [0x81, 0x80, 0x00, 0x01, 0x00, 0x01, 0x00, 0x00, 0x00, 0x00]

def addressBytes (targetIp : UInt32) : List UInt8 :=
  [(targetIp &&& 0xFF).toUInt8, ((targetIp >>> 8) &&& 0xFF).toUInt8,
    ((targetIp >>> 16) &&& 0xFF).toUInt8, ((targetIp >>> 24) &&& 0xFF).toUInt8]

/-- A pointer to the name, the type, the class, the time to live, the length and the data. -/
def answer (targetIp : UInt32) : List UInt8 :=
  [0xC0, 0x0C, 0x00, 0x01, 0x00, 0x01, 0x00, 0x00, 0x00, 0x3C, 0x00, 0x04] ++
    addressBytes targetIp

/-- The loop over the name.  `none` when it reads outside the buffer or runs out of fuel. -/
def walk (buf : Buffer) (n : ℕ) : ℕ → ℕ → Option ℕ
  | 0, _ => none
  | fuel + 1, p =>
      if p < n then do
        let b ← buf.get p
        if b = 0 then some p
        else if b &&& 0xC0 ≠ 0 then some p
        else walk buf n fuel (p + 1 + b.toNat)
      else some p

/-- One turn of the task with what `recvfrom` gave; the buffer which is left and what is sent.
`none` when the turn indexes outside the buffer. -/
def turn (targetIp : UInt32) (buf : Buffer) :
    Option (List UInt8) → Option (Buffer × Option (List UInt8))
  | none => some (buf, none)
  | some datagram => do
      let n := (datagram.take 512).length
      let buf := buf.recvfrom datagram
      if n < 12 then some (buf, none)
      else
        let buf ← buf.write 2 responseHeader
        let p ← walk buf n n 12
        if p ≥ n then some (buf, none)
        else if p + (1 + 4) + 16 > 512 then some (buf, none)
        else
          let buf ← buf.write (p + (1 + 4)) (answer targetIp)
          some (buf, some (buf.bytes.take (p + (1 + 4) + 16)))

/-- The buffer behind the turn. -/
def step (targetIp : UInt32) (buf : Buffer) (datagram : Option (List UInt8)) : Buffer :=
  match turn targetIp buf datagram with
  | some (buf', _) => buf'
  | none => buf

/-- What the turn sends. -/
def reply (targetIp : UInt32) (buf : Buffer) (datagram : Option (List UInt8)) :
    Option (List UInt8) :=
  (turn targetIp buf datagram).bind Prod.snd

/-! ### What is asked of a turn -/

/-- The first question, which is complete inside the bytes. -/
def FirstQuestion (bytes q : List UInt8) : Prop :=
  IsQuestion q ∧ q <+: bytes.drop 12

/-- A response with the id of the query, its question and one answer, which gives the address for
the name of the question. -/
def IsReply (targetIp : UInt32) (bytes r : List UInt8) : Prop :=
  ∃ q hi lo ttl, FirstQuestion bytes q ∧ 0x80 ≤ UInt8.toNat hi ∧ ttl.length = 4 ∧
    r = bytes.take 2 ++ [hi, lo, 0x00, 0x01, 0x00, 0x01, 0x00, 0x00, 0x00, 0x00] ++ q ++
      ([0xC0, 0x0C, 0x00, 0x01, 0x00, 0x01] ++ ttl ++ [0x00, 0x04] ++ addressBytes targetIp)

structure Proper (targetIp : UInt32) (buf : Buffer) (datagram : Option (List UInt8)) : Prop where
  inBounds : turn targetIp buf datagram ≠ none
  ofDatagram : ∀ buf', reply targetIp buf' datagram = reply targetIp buf datagram
  isReply : ∀ r ∈ reply targetIp buf datagram,
    ∃ bytes ∈ datagram, IsReply targetIp (bytes.take 512) r
  silent : ∀ bytes ∈ datagram, (¬ ∃ q, FirstQuestion (bytes.take 512) q) →
    reply targetIp buf datagram = none

/-- When the name ends at all and leaves room for the answer, it ends at a zero byte, with the
type and the class inside the bytes. -/
def Closed (bytes : List UInt8) : Prop :=
  ∀ e, StopsAt bytes 12 e → e + 21 ≤ 512 → bytes[e]? = some 0 ∧ e + 5 ≤ bytes.length

/-! ### The walk over the name -/

theorem and_labelMask_eq_zero_iff (b : UInt8) : b &&& 0xC0 = 0 ↔ b.toNat < 64 := by
  have hall : ∀ n < 256, n &&& 0xC0 = 0 ↔ n < 64 := by decide +kernel
  rw [← UInt8.toNat_inj, UInt8.toNat_and]
  exact hall b.toNat b.toNat_lt

/-- The walk finds where the chain of labels stops, or leaves the bytes. -/
theorem walk_spec {buf : Buffer} {bytes : List UInt8}
    (hbuf : ∀ i, 12 ≤ i → i < bytes.length → buf.get i = bytes[i]?) (fuel p : ℕ) (hp : 12 ≤ p)
    (hpos : 0 < fuel) (hfuel : bytes.length < fuel + p) :
    (∃ e, StopsAt bytes p e ∧ walk buf bytes.length fuel p = some e) ∨
      (∀ e, ¬ StopsAt bytes p e) ∧
        ∃ e, bytes.length ≤ e ∧ walk buf bytes.length fuel p = some e := by
  induction fuel generalizing p with
  | zero => exact absurd hpos (Nat.lt_irrefl 0)
  | succ fuel ih =>
      by_cases hin : p < bytes.length
      · have hget : bytes[p]? = some bytes[p] := List.getElem?_eq_getElem hin
        have hread : buf.get p = some bytes[p] := (hbuf p hp hin).trans hget
        simp only [walk, if_pos hin, hread, Option.bind_eq_bind, Option.bind_some]
        by_cases hzero : bytes[p] = 0
        · exact Or.inl ⟨p, StopsAt.here hget (Or.inl hzero), if_pos hzero⟩
        · rw [if_neg hzero]
          by_cases hmask : bytes[p] &&& 0xC0 = 0
          · have hlt := (and_labelMask_eq_zero_iff _).mp hmask
            have hne : 0 < bytes[p].toNat :=
              Nat.pos_of_ne_zero fun h => hzero (UInt8.toNat_inj.mp h)
            rw [if_neg (not_not_intro hmask)]
            rcases ih (p + 1 + bytes[p].toNat) (by omega) (by omega) (by omega) with
              ⟨e, hstops, hwalk⟩ | ⟨hnone, e, hle, hwalk⟩
            · exact Or.inl ⟨e, StopsAt.label hget hne hlt hstops, hwalk⟩
            · refine Or.inr ⟨fun e' hstops => ?_, e, hle, hwalk⟩
              cases hstops with
              | @here _ b hget' hstop =>
                  obtain rfl : bytes[p] = b := Option.some.inj (hget.symm.trans hget')
                  rcases hstop with hstop | hstop
                  · exact hzero hstop
                  · omega
              | @label _ _ b hget' hpos' hlt' hstops' =>
                  obtain rfl : bytes[p] = b := Option.some.inj (hget.symm.trans hget')
                  exact hnone e' hstops'
          · have hge : 64 ≤ bytes[p].toNat :=
              Nat.le_of_not_lt fun h => hmask ((and_labelMask_eq_zero_iff _).mpr h)
            exact Or.inl ⟨p, StopsAt.here hget (Or.inr hge), if_pos hmask⟩
      · refine Or.inr ⟨fun e hstops => ?_, p, by omega, ?_⟩
        · have hle := hstops.le
          have hlt := hstops.lt_length
          omega
        · rw [walk, if_neg hin]

/-! ### One turn -/

namespace Buffer

theorem write_spec (buf : Buffer) (p : ℕ) (vs : List UInt8) (h : p + vs.length ≤ 512) :
    ∃ buf', buf.write p vs = some buf' ∧
      buf'.bytes = buf.bytes.take p ++ vs ++ buf.bytes.drop (p + vs.length) := by
  induction vs generalizing buf p with
  | nil =>
      refine ⟨buf, rfl, ?_⟩
      rw [List.append_nil, List.length_nil, Nat.add_zero, List.take_append_drop]
  | cons v vs ih =>
      rw [List.length_cons] at h
      have hp : p < 512 := by omega
      have hset : buf.set p v = some ⟨buf.bytes.set p v, by rw [List.length_set, buf.size]⟩ :=
        if_pos hp
      obtain ⟨buf', hwrite, hbytes⟩ := ih ⟨buf.bytes.set p v, _⟩ (p + 1) (by omega)
      refine ⟨buf', by rw [write, hset]; exact hwrite, ?_⟩
      have hlt : p < buf.bytes.length := by rw [buf.size]; exact hp
      have htake : (buf.bytes.set p v).take (p + 1) = buf.bytes.take p ++ [v] := by
        have hlen : p + 1 = (buf.bytes.take p).length + 1 := by
          rw [List.length_take, Nat.min_eq_left (Nat.le_of_lt hlt)]
        rw [List.set_eq_take_append_cons_drop, if_pos hlt, hlen, List.take_length_add_append,
          List.take_succ_cons, List.take_zero]
      have hdrop : (buf.bytes.set p v).drop (p + 1 + vs.length) =
          buf.bytes.drop (p + (vs.length + 1)) := by
        rw [List.drop_set_of_lt (by omega)]
        congr 1
        omega
      rw [hbytes, htake, hdrop, List.append_assoc (buf.bytes.take p), List.singleton_append,
        List.length_cons]

theorem recvfrom_get (buf : Buffer) (datagram : List UInt8) {i : ℕ}
    (h : i < (datagram.take 512).length) :
    (buf.recvfrom datagram).bytes[i]? = (datagram.take 512)[i]? :=
  List.getElem?_append_left h

/-- The question and what is behind it, up to the offset `p`, comes from the buffer. -/
theorem take_respond (buf : Buffer) {p : ℕ} (hp : 12 ≤ p) :
    (buf.bytes.take 2 ++ responseHeader ++ buf.bytes.drop 12).take p =
      buf.bytes.take 2 ++ responseHeader ++ (buf.bytes.drop 12).take (p - 12) := by
  have hlen : (buf.bytes.take 2 ++ responseHeader).length = 12 := by
    rw [List.length_append, List.length_take, buf.size]
    rfl
  have hsum : p = (buf.bytes.take 2 ++ responseHeader).length + (p - 12) := by omega
  rw [hsum, List.take_length_add_append, hlen]
  congr 2
  omega

end Buffer

/-- The bytes which are sent when the walk stops at the offset `e`. -/
def sent (targetIp : UInt32) (buf : Buffer) (datagram : List UInt8) (e : ℕ) : List UInt8 :=
  (datagram.take 512).take 2 ++ responseHeader ++
    ((buf.recvfrom datagram).bytes.drop 12).take (e - 7) ++ answer targetIp

section Turn

variable (targetIp : UInt32) (buf : Buffer) (datagram : List UInt8)

/-- A turn does not index outside the buffer.  It sends when the chain of labels stops with room
for the answer. -/
theorem turn_cases :
    ((∀ e, StopsAt (datagram.take 512) 12 e → 512 < e + 21) ∧
        ∃ buf', turn targetIp buf (some datagram) = some (buf', none)) ∨
      ∃ e buf', StopsAt (datagram.take 512) 12 e ∧ e + 21 ≤ 512 ∧
        turn targetIp buf (some datagram) =
          some (buf', some (sent targetIp buf datagram e)) := by
  by_cases hshort : (datagram.take 512).length < 12
  · refine Or.inl ⟨fun e hstops => ?_, buf.recvfrom datagram, ?_⟩
    · have hle := hstops.le
      have hlt := hstops.lt_length
      omega
    · simp only [turn, if_pos hshort]
  · obtain ⟨headed, hheaded, hbytes⟩ :=
      (buf.recvfrom datagram).write_spec 2 responseHeader (by decide)
    have hread : ∀ i, 12 ≤ i → i < (datagram.take 512).length →
        headed.get i = (datagram.take 512)[i]? := by
      intro i hi hlt
      have hlen : ((buf.recvfrom datagram).bytes.take 2 ++ responseHeader).length = 12 := by
        rw [List.length_append, List.length_take, (buf.recvfrom datagram).size]
        rfl
      have hdrop : 12 + (i - 12) = i := by omega
      rw [Buffer.get, hbytes, List.getElem?_append_right (by omega), hlen, List.getElem?_drop]
      exact (congrArg _ hdrop).trans (buf.recvfrom_get datagram hlt)
    rcases walk_spec hread (datagram.take 512).length 12 (Nat.le_refl 12) (by omega) (by omega) with
      ⟨e, hstops, hwalk⟩ | ⟨hnone, e, hle, hwalk⟩
    · have hge := hstops.le
      have hin := hstops.lt_length
      by_cases hroom : e + (1 + 4) + 16 > 512
      · refine Or.inl ⟨fun e' hstops' => ?_, headed, ?_⟩
        · obtain rfl := hstops.unique hstops'
          omega
        · simp only [turn, if_neg hshort, hheaded, hwalk, Option.bind_eq_bind, Option.bind_some,
            if_neg (Nat.not_le.mpr hin), if_pos hroom]
      · obtain ⟨answered, hanswered, hfinal⟩ :=
          headed.write_spec (e + (1 + 4)) (answer targetIp) (by
            change e + (1 + 4) + 16 ≤ 512
            omega)
        refine Or.inr ⟨e, answered, hstops, by omega, ?_⟩
        have htake : answered.bytes.take (e + (1 + 4) + 16) = sent targetIp buf datagram e := by
          have hquestion : headed.bytes.take (e + (1 + 4)) =
              (datagram.take 512).take 2 ++ responseHeader ++
                ((buf.recvfrom datagram).bytes.drop 12).take (e - 7) := by
            have hid : (buf.recvfrom datagram).bytes.take 2 = (datagram.take 512).take 2 :=
              List.take_append_of_le_length (by omega)
            have hheading : headed.bytes = (buf.recvfrom datagram).bytes.take 2 ++
                responseHeader ++ (buf.recvfrom datagram).bytes.drop 12 := hbytes
            have hoffset : e + (1 + 4) - 12 = e - 7 := by omega
            rw [hheading, Buffer.take_respond _ (by omega), hid, hoffset]
          have hlen : (headed.bytes.take (e + (1 + 4)) ++ answer targetIp).length =
              e + (1 + 4) + 16 := by
            rw [List.length_append, List.length_take, headed.size, Nat.min_eq_left (by omega)]
            rfl
          rw [hfinal, List.take_left' hlen, hquestion, sent]
        simp only [turn, if_neg hshort, hheaded, hwalk, Option.bind_eq_bind, Option.bind_some,
          if_neg (Nat.not_le.mpr hin), if_neg hroom, hanswered, htake]
    · refine Or.inl ⟨fun e' hstops' => absurd hstops' (hnone e'), headed, ?_⟩
      simp only [turn, if_neg hshort, hheaded, hwalk, Option.bind_eq_bind, Option.bind_some,
        if_pos hle]

variable {targetIp buf datagram}

theorem reply_of_stopsAt {e : ℕ} (hstops : StopsAt (datagram.take 512) 12 e)
    (hroom : e + 21 ≤ 512) :
    reply targetIp buf (some datagram) = some (sent targetIp buf datagram e) := by
  rcases turn_cases targetIp buf datagram with ⟨hnone, _⟩ | ⟨e', buf', hstops', _, hturn⟩
  · have hfar := hnone e hstops
    omega
  · obtain rfl := hstops.unique hstops'
    rw [reply, hturn]
    rfl

theorem reply_of_not_stopsAt (h : ∀ e, StopsAt (datagram.take 512) 12 e → 512 < e + 21) :
    reply targetIp buf (some datagram) = none := by
  rcases turn_cases targetIp buf datagram with ⟨_, buf', hturn⟩ | ⟨e, _, hstops, hroom, _⟩
  · rw [reply, hturn]
    rfl
  · have hfar := h e hstops
    omega

theorem turn_ne_none (received : Option (List UInt8)) : turn targetIp buf received ≠ none := by
  cases received with
  | none => exact Option.some_ne_none _
  | some datagram =>
      rcases turn_cases targetIp buf datagram with ⟨_, buf', hturn⟩ | ⟨_, _, _, _, hturn⟩ <;>
        rw [hturn] <;> exact Option.some_ne_none _

/-- The question is copied from the datagram when it is inside. -/
theorem sent_of_le {e : ℕ} (h : e + 5 ≤ (datagram.take 512).length) :
    sent targetIp buf datagram e =
      (datagram.take 512).take 2 ++ responseHeader ++
        ((datagram.take 512).drop 12).take (e - 7) ++ answer targetIp := by
  have hquestion : ((buf.recvfrom datagram).bytes.drop 12).take (e - 7) =
      ((datagram.take 512).drop 12).take (e - 7) := by
    by_cases hge : 12 ≤ (datagram.take 512).length
    · rw [Buffer.recvfrom, List.drop_append_of_le_length hge, List.take_append_of_le_length]
      rw [List.length_drop]
      omega
    · have hzero : e - 7 = 0 := by omega
      rw [hzero, List.take_zero, List.take_zero]
  rw [sent, hquestion]

theorem length_sent {e : ℕ} (hge : 12 ≤ e) (hroom : e + 21 ≤ 512) (hid : 2 ≤ datagram.length) :
    (sent targetIp buf datagram e).length = e + 21 := by
  have hheader : responseHeader.length = 10 := rfl
  have hanswer : (answer targetIp).length = 16 := rfl
  simp only [sent, List.length_append, List.length_take, List.length_drop, Buffer.size, hheader,
    hanswer]
  omega

theorem firstQuestion_of_stopsAt {bytes : List UInt8} {e : ℕ} (hstops : StopsAt bytes 12 e)
    (hzero : bytes[e]? = some 0) (h : e + 5 ≤ bytes.length) :
    FirstQuestion bytes ((bytes.drop 12).take (e - 7)) := by
  have hle := hstops.le
  refine ⟨⟨(bytes.drop 12).take (e + 1 - 12), ((bytes.drop 12).drop (e + 1 - 12)).take 4,
    hstops.isName hzero, ?_, ?_⟩, List.take_prefix _ _⟩
  · rw [List.length_take, List.length_drop, List.length_drop]
    omega
  · have hsum : e - 7 = e + 1 - 12 + 4 := by omega
    rw [hsum, List.take_add]

/-- The first question ends behind the byte which stops the chain of labels. -/
theorem FirstQuestion.length {bytes q : List UInt8} (h : FirstQuestion bytes q) :
    q.length ≤ bytes.length - 12 ∧ ∀ e, StopsAt bytes 12 e →
      (bytes[e]? = some 0 ∧ q.length = e - 7) ∨ q.length = e - 6 := by
  obtain ⟨⟨name, fixed, hname, hfixed, rfl⟩, hpre⟩ := h
  refine ⟨?_, fun e hstops => ?_⟩
  · have hlen := hpre.length_le
    rwa [List.length_drop] at hlen
  · have hle := hstops.le
    have hfront : name <+: bytes.drop 12 := (List.prefix_append name fixed).trans hpre
    rw [List.length_append, hfixed]
    rcases hname.length_of_stopsAt hfront hstops with ⟨hzero, hend⟩ | ⟨_, _, _, hend⟩
    · exact Or.inl ⟨hzero, by omega⟩
    · exact Or.inr (by omega)

theorem proper_of_closed (h : Closed (datagram.take 512)) :
    Proper targetIp buf (some datagram) := by
  by_cases hsends : ∃ e, StopsAt (datagram.take 512) 12 e ∧ e + 21 ≤ 512
  · obtain ⟨e, hstops, hroom⟩ := hsends
    obtain ⟨hzero, hinside⟩ := h e hstops hroom
    have hquestion := firstQuestion_of_stopsAt hstops hzero hinside
    have hreply : ∀ buf', reply targetIp buf' (some datagram) =
        some ((datagram.take 512).take 2 ++ responseHeader ++
          ((datagram.take 512).drop 12).take (e - 7) ++ answer targetIp) := fun buf' => by
      rw [reply_of_stopsAt hstops hroom, sent_of_le hinside]
    refine ⟨turn_ne_none _, fun buf' => (hreply buf').trans (hreply buf).symm, ?_, ?_⟩
    · rintro r hr
      obtain rfl := Option.some.inj ((hreply buf).symm.trans hr)
      exact ⟨datagram, rfl, _, 0x81, 0x80, [0x00, 0x00, 0x00, 0x3C], hquestion, by decide, rfl,
        rfl⟩
    · rintro bytes ⟨⟩ hnone
      exact absurd ⟨_, hquestion⟩ hnone
  · have hfar : ∀ e, StopsAt (datagram.take 512) 12 e → 512 < e + 21 := fun e hstops =>
      Nat.lt_of_not_le fun hroom => hsends ⟨e, hstops, hroom⟩
    have hreply : ∀ buf', reply targetIp buf' (some datagram) = none := fun buf' =>
      reply_of_not_stopsAt hfar
    refine ⟨turn_ne_none _, fun buf' => (hreply buf').trans (hreply buf).symm, ?_,
      fun bytes _ _ => hreply buf⟩
    intro r hr
    rw [hreply buf] at hr
    exact absurd hr (Option.not_mem_none r)

theorem closed_of_proper (h : Proper targetIp buf (some datagram)) :
    Closed (datagram.take 512) := by
  intro e hstops hroom
  obtain ⟨bytes, ⟨⟩, q, hi, lo, ttl, hquestion, _, httl, hr⟩ :=
    h.isReply _ (reply_of_stopsAt hstops hroom)
  obtain ⟨hle, hends⟩ := hquestion.length
  have hge := hstops.le
  have hlt := hstops.lt_length
  have hlength : q.length = e - 7 := by
    have hid : 2 ≤ datagram.length := by
      rw [List.length_take] at hlt
      omega
    have hsent : (sent targetIp buf datagram e).length = e + 21 := length_sent hge hroom hid
    have hanswer : (addressBytes targetIp).length = 4 := rfl
    rw [hr] at hsent
    simp only [List.length_append, List.length_cons, List.length_nil, List.length_take, httl,
      hanswer] at hsent
    omega
  rcases hends e hstops with ⟨hzero, _⟩ | hpointer
  · exact ⟨hzero, by omega⟩
  · omega

end Turn

theorem proper_iff (targetIp : UInt32) (buf : Buffer) (received : Option (List UInt8)) :
    Proper targetIp buf received ↔ ∀ datagram ∈ received, Closed (datagram.take 512) := by
  cases received with
  | none =>
      refine ⟨fun _ => nofun, fun _ => ⟨Option.some_ne_none _, fun _ => rfl, nofun, nofun⟩⟩
  | some datagram =>
      refine ⟨?_, fun h => proper_of_closed (h datagram rfl)⟩
      rintro h datagram ⟨⟩
      exact closed_of_proper h

/-- A run in which every turn is as asked is one whose datagrams are all closed. -/
theorem along_proper_iff (targetIp : UInt32) (buf : Buffer)
    (received : List (Option (List UInt8))) :
    Along (step targetIp) (Proper targetIp) buf received ↔
      ∀ datagram, some datagram ∈ received → Closed (datagram.take 512) := by
  rw [along_congr (proper_iff targetIp), along_const_iff]
  exact ⟨fun h datagram hmem => h _ hmem datagram rfl,
    fun h received hmem datagram hreceived => h datagram (Option.mem_def.mp hreceived ▸ hmem)⟩

def zeros : Buffer :=
  ⟨List.replicate 512 0, List.length_replicate⟩

/-- A query for the IPv6 address of the name `a`. -/
def query : List UInt8 :=
  [0x12, 0x34, 0x01, 0x00, 0x00, 0x01, 0x00, 0x00, 0x00, 0x00, 0x00, 0x00,
    0x01, 0x61, 0x00, 0x00, 0x1C, 0x00, 0x01]

/-- A query for the root, which ends behind the name. -/
def cutQuery : List UInt8 :=
  [0x56, 0x78, 0x01, 0x00, 0x00, 0x01, 0x00, 0x00, 0x00, 0x00, 0x00, 0x00, 0x00]

/-- The type and the class in the reply to the second query are bytes of the first one. -/
theorem not_along_proper_cutQuery :
    ¬ Along (step 0x0104A8C0) (Proper 0x0104A8C0) zeros [some query, some cutQuery] := by
  rintro ⟨-, hproper, -⟩
  have hsame := hproper.ofDatagram zeros
  have hdiffer : reply 0x0104A8C0 zeros (some cutQuery) ≠
      reply 0x0104A8C0 (step 0x0104A8C0 zeros (some query)) (some cutQuery) := by
    decide
  exact hdiffer hsame

end DnsHijack

end BtClock
