import BtClock.Nostr.EventSign
import BtClock.Nostr.Hkdf
import BtClock.Nostr.LogCurve
import Mathlib.Data.List.GetD

/-!
# What is signed verifies

The signature of a key satisfies the equation of BIP-340, and the verifier accepts every
event which the signer returns.
-/

namespace BtClock

namespace Nostr

/-! ### Arrays of bytes as numbers -/

theorem ge256_iff {a b : List UInt8} (h : a.length = b.length) :
    ge256 a b = true ↔ BigEndian.toNat b ≤ BigEndian.toNat a := by
  induction a generalizing b with
  | nil =>
      obtain rfl : b = [] := List.length_eq_zero_iff.mp h.symm
      simp [ge256]
  | cons x a ih =>
      obtain ⟨y, b, rfl⟩ := List.exists_cons_of_length_pos (l := b) (by simp [← h])
      have hlen : a.length = b.length := Nat.succ.inj h
      have ha := BigEndian.toNat_lt a
      have hb := BigEndian.toNat_lt b
      rw [ge256, BigEndian.toNat_cons, BigEndian.toNat_cons, ← hlen]
      rw [← hlen] at hb
      by_cases hxy : x = y
      · rw [if_neg (not_not.mpr hxy), ih hlen, hxy]
        omega
      · rw [if_pos hxy, decide_eq_true_eq, gt_iff_lt, UInt8.lt_iff_toNat_lt]
        have hne : x.toNat ≠ y.toNat := fun heq => hxy (UInt8.toNat_inj.mp heq)
        generalize 256 ^ a.length = p at ha hb
        constructor
        · intro hlt
          have hmul := Nat.mul_le_mul_right p (Nat.succ_le_of_lt hlt)
          rw [Nat.succ_mul] at hmul
          omega
        · intro hle
          by_contra hge
          have hlt : x.toNat < y.toNat := by omega
          have hmul := Nat.mul_le_mul_right p (Nat.succ_le_of_lt hlt)
          rw [Nat.succ_mul] at hmul
          omega

theorem length_sub256Loop {borrow : ℕ} {a b : List UInt8} (h : a.length = b.length) :
    (sub256Loop borrow a b).length = a.length := by
  induction a generalizing borrow b with
  | nil => rfl
  | cons x a ih =>
      obtain ⟨y, b, rfl⟩ := List.exists_cons_of_length_pos (l := b) (by simp [← h])
      rw [sub256Loop]
      split
      all_goals rw [List.length_cons, ih (Nat.succ.inj h), List.length_cons]

/-- The loop subtracts, up to a borrow which is left over. -/
theorem toNat_sub256Loop {borrow : ℕ} {a b : List UInt8} (h : a.length = b.length)
    (hborrow : borrow ≤ 1) :
    ∃ rest ≤ 1, BigEndian.toNat (sub256Loop borrow a b).reverse +
        (BigEndian.toNat b.reverse + borrow) =
      BigEndian.toNat a.reverse + rest * 256 ^ a.length := by
  induction a generalizing borrow b with
  | nil =>
      obtain rfl : b = [] := List.length_eq_zero_iff.mp h.symm
      exact ⟨borrow, hborrow, by simp [sub256Loop]⟩
  | cons x a ih =>
      obtain ⟨y, b, rfl⟩ := List.exists_cons_of_length_pos (l := b) (by simp [← h])
      have hlen : a.length = b.length := Nat.succ.inj h
      have hx := x.toNat_lt
      have hy := y.toNat_lt
      rw [sub256Loop]
      split
      · rename_i hlt
        obtain ⟨rest, hrest, heq⟩ := ih hlen (Nat.le_refl 1)
        refine ⟨rest, hrest, ?_⟩
        simp only [List.reverse_cons, BigEndian.toNat_append_singleton, List.length_cons,
          Nat.pow_succ, UInt8.toNat_ofNat']
        rw [← Nat.mul_assoc]
        omega
      · rename_i hge
        obtain ⟨rest, hrest, heq⟩ := ih hlen (Nat.zero_le 1)
        refine ⟨rest, hrest, ?_⟩
        simp only [List.reverse_cons, BigEndian.toNat_append_singleton, List.length_cons,
          Nat.pow_succ, UInt8.toNat_ofNat']
        rw [← Nat.mul_assoc]
        omega

theorem length_sub256 {a b : List UInt8} (h : a.length = b.length) :
    (sub256 a b).length = a.length := by
  rw [sub256, List.length_reverse, length_sub256Loop (by simpa using h), List.length_reverse]

theorem toNat_sub256 {a b : List UInt8} (h : a.length = b.length)
    (hle : BigEndian.toNat b ≤ BigEndian.toNat a) :
    BigEndian.toNat (sub256 a b) = BigEndian.toNat a - BigEndian.toNat b := by
  have hrev : a.reverse.length = b.reverse.length := by simpa using h
  obtain ⟨rest, hrest, heq⟩ := toNat_sub256Loop hrev (Nat.zero_le 1)
  have hlt := BigEndian.toNat_lt (sub256 a b)
  rw [length_sub256 h] at hlt
  rw [List.reverse_reverse, List.reverse_reverse, List.length_reverse] at heq
  change BigEndian.toNat (sub256 a b) + _ = _ at heq
  have hzero : rest = 0 := by
    by_contra hne
    obtain rfl : rest = 1 := by omega
    omega
  rw [hzero] at heq
  omega

theorem isZero32_of_toNat_eq_zero {a : List UInt8} (h : BigEndian.toNat a = 0) :
    isZero32 a = true := by
  have hzero : ∀ b ∈ a, b = 0 := by
    induction a using List.reverseRecOn with
    | nil => simp
    | append_singleton a b ih =>
        rw [BigEndian.toNat_append_singleton] at h
        intro c hc
        rcases List.mem_append.mp hc with hc | hc
        · exact ih (by omega) c hc
        · rw [List.mem_singleton.mp hc]
          exact UInt8.toNat_inj.mp (by omega : b.toNat = 0)
  have hfold : a.foldl (· ||| ·) 0 = (0 : UInt8) := by
    clear h
    induction a with
    | nil => rfl
    | cons b a ih =>
        rw [List.foldl_cons, hzero b List.mem_cons_self]
        exact ih fun c hc => hzero c (List.mem_cons_of_mem _ hc)
  rw [isZero32, hfold]
  rfl

theorem length_taggedHash (tag : List Char) (msg : List UInt8) :
    (taggedHash tag msg).length = 32 :=
  length_sha256Final _

theorem toNat_kN : BigEndian.toNat kN = kOrder := by
  decide

/-- The reduction of a hash. -/
theorem reduceModN_eq_some {a b : List UInt8} (ha : a.length = 32)
    (h : reduceModN a = some b) :
    BigEndian.toNat b = BigEndian.toNat a % kOrder ∧ 0 < BigEndian.toNat b := by
  have hlen : a.length = kN.length := ha
  have hlt : BigEndian.toNat a < 2 * kOrder := by
    have hbound := BigEndian.toNat_lt a
    rw [ha] at hbound
    exact Nat.lt_trans hbound (by decide)
  have hmod : BigEndian.toNat (if ge256 a kN then sub256 a kN else a) =
      BigEndian.toNat a % kOrder := by
    split
    · rename_i hge
      have hle := (ge256_iff hlen).mp hge
      rw [toNat_sub256 hlen hle, toNat_kN]
      rw [toNat_kN] at hle
      rw [Nat.mod_eq_sub_mod hle, Nat.mod_eq_of_lt (by omega)]
    · rename_i hge
      have hnle := mt (ge256_iff hlen).mpr hge
      rw [toNat_kN, Nat.not_le] at hnle
      rw [Nat.mod_eq_of_lt hnle]
  unfold reduceModN at h
  dsimp only at h
  generalize (if ge256 a kN then sub256 a kN else a) = r at h hmod
  split at h
  · cases h
  · rename_i hzero
    obtain rfl := Option.some.inj h
    refine ⟨hmod, Nat.pos_of_ne_zero fun h0 => hzero ?_⟩
    exact isZero32_of_toNat_eq_zero h0

/-! ### What the library returns -/

theorem scalarSetB32Seckey_eq_some {bytes : List UInt8} {v : ℕ}
    (h : scalarSetB32Seckey bytes = some v) :
    BigEndian.toNat bytes = v ∧ 0 < v ∧ v < kOrder := by
  unfold scalarSetB32Seckey at h
  dsimp only at h
  split at h
  · rename_i hv
    obtain rfl := Option.some.inj h
    exact ⟨rfl, hv⟩
  · cases h

/-- The bytes of a scalar. -/
theorem toNat_ofNat_scalar {v : ℕ} (h : v < kOrder) :
    BigEndian.toNat (BigEndian.ofNat 32 v) = v :=
  BigEndian.toNat_ofNat_of_lt (Nat.lt_trans h (by decide))

theorem negateIf_eq_some {odd : Bool} {scalar d : List UInt8}
    (hpos : 0 < BigEndian.toNat scalar) (hlt : BigEndian.toNat scalar < kOrder)
    (h : negateIf odd scalar = some d) :
    BigEndian.toNat d =
      if odd then kOrder - BigEndian.toNat scalar else BigEndian.toNat scalar := by
  unfold negateIf at h
  split at h
  · rename_i hodd
    obtain ⟨sec, hsec, hd⟩ := Option.bind_eq_some_iff.mp h
    obtain ⟨rfl, -, -⟩ := scalarSetB32Seckey_eq_some hsec
    obtain rfl := Option.some.inj hd
    have hneg : kOrder - BigEndian.toNat scalar < kOrder := Nat.sub_lt (by omega) hpos
    rw [if_pos hodd, Nat.mod_eq_of_lt hneg, toNat_ofNat_scalar hneg]
  · rename_i hodd
    obtain rfl := Option.some.inj h
    rw [if_neg hodd]

theorem ecSeckeyTweakMul_eq_some {seckey tweak b : List UInt8}
    (h : ecSeckeyTweakMul seckey tweak = some b) :
    BigEndian.toNat b = BigEndian.toNat seckey * BigEndian.toNat tweak % kOrder := by
  obtain ⟨sec, hsec, hb⟩ := Option.bind_eq_some_iff.mp h
  obtain ⟨rfl, hpos, hlt⟩ := scalarSetB32Seckey_eq_some hsec
  dsimp only at hb
  split at hb
  · cases hb
  · obtain rfl := Option.some.inj hb
    exact toNat_ofNat_scalar (Nat.mod_lt _ (by decide))

theorem ecSeckeyTweakAdd_eq_some {seckey tweak b : List UInt8}
    (h : ecSeckeyTweakAdd seckey tweak = some b) :
    b.length = 32 ∧ BigEndian.toNat b < kOrder ∧
      BigEndian.toNat b = (BigEndian.toNat seckey + BigEndian.toNat tweak) % kOrder := by
  obtain ⟨sec, hsec, hb⟩ := Option.bind_eq_some_iff.mp h
  obtain ⟨rfl, hpos, hlt⟩ := scalarSetB32Seckey_eq_some hsec
  dsimp only at hb
  split at hb
  · cases hb
  · split at hb
    · cases hb
    · obtain rfl := Option.some.inj hb
      have hmod := Nat.mod_lt (BigEndian.toNat seckey + BigEndian.toNat tweak)
        (by decide : 0 < kOrder)
      exact ⟨BigEndian.length_ofNat _ _, by rwa [toNat_ofNat_scalar hmod],
        toNat_ofNat_scalar hmod⟩

/-- The last bit of a byte is the parity of the number. -/
theorem ofNat_and_one (v : ℕ) : (UInt8.ofNat v &&& 1 != 0) = (v % 2 == 1) := by
  have hbit : (UInt8.ofNat v &&& 1).toNat = v % 2 := by
    rw [UInt8.toNat_and, UInt8.toNat_ofNat', UInt8.toNat_one, Nat.and_one_is_mod]
    omega
  rw [Bool.eq_iff_iff, bne_iff_ne, beq_iff_eq, ne_eq, ← UInt8.toNat_inj, hbit]
  have := Nat.mod_two_eq_zero_or_one v
  change ¬ v % 2 = 0 ↔ _
  omega

theorem getD_serialized_and_one (tag : UInt8) (x y : ℕ) :
    ((tag :: BigEndian.ofNat 32 x ++ BigEndian.ofNat 32 y).getD 64 0 &&& 1 != 0) =
      (y % 2 == 1) := by
  have hlast : BigEndian.ofNat 32 y = BigEndian.ofNat 31 (y / 256) ++ [UInt8.ofNat y] := rfl
  have hlen : (tag :: BigEndian.ofNat 32 x ++ BigEndian.ofNat 31 (y / 256)).length = 64 := by
    simp
  rw [hlast, ← List.append_assoc, List.getD_append_right _ _ _ _ (Nat.le_of_eq hlen), hlen,
    Nat.sub_self]
  exact ofNat_and_one y

namespace Curve

variable {G : Type} [AddCommGroup G] (C : Curve G)

/-- The coordinate and the parity of the points. -/
def points : Schnorr.Points G ℕ where
  x := C.x
  odd := C.odd
  x_neg := C.x_neg
  odd_neg P hP := by
    have hy := C.y_lt P hP
    have hfield : kField % 2 = 1 := by decide
    rw [odd, odd, C.y_neg P hP]
    rcases Nat.mod_two_eq_zero_or_one (C.y P) with h | h
    · have hneg : (kField - C.y P) % 2 = 1 := by omega
      rw [h, hneg]
      rfl
    · have hneg : (kField - C.y P) % 2 = 0 := by omega
      rw [h, hneg]
      rfl
  ext P Q hP hQ hx hodd := by
    have hsetP := (C.setXo_eq_some (C.x P) (C.odd P) P).mpr ⟨hP, rfl, rfl⟩
    have hsetQ := (C.setXo_eq_some (C.x P) (C.odd P) Q).mpr ⟨hQ, hx.symm, hodd.symm⟩
    exact Option.some.inj (hsetP.symm.trans hsetQ)

theorem ecPubkeyParse_kGCompressed : C.ecPubkeyParse kGCompressed = some C.g := by
  have hfe : feSetB32Limit (kGCompressed.drop 1) = some (C.x C.g) := by
    rw [C.x_g]
    decide
  have hset : C.setXo (C.x C.g) false = some C.g :=
    (C.setXo_eq_some _ _ _).mpr ⟨C.g_ne_zero, rfl, by rw [C.y_g]; decide⟩
  have hparse : C.ecPubkeyParse kGCompressed =
      (feSetB32Limit (kGCompressed.drop 1)).bind fun v => C.setXo v false := rfl
  rw [hparse, hfe, Option.bind_some, hset]

variable [DecidableEq G]

/-- The coordinate and the parity of a multiple of the generator. -/
theorem scalarMulG_eq_some {scalar x : List UInt8} {odd : Bool}
    (h : scalarMulG C scalar = some (x, odd)) :
    0 < BigEndian.toNat scalar ∧ BigEndian.toNat scalar < kOrder ∧
      BigEndian.toNat scalar • C.g ≠ 0 ∧
      x = BigEndian.ofNat 32 (C.x (BigEndian.toNat scalar • C.g)) ∧
      odd = C.odd (BigEndian.toNat scalar • C.g) := by
  rw [scalarMulG, ecPubkeyParse_kGCompressed] at h
  obtain ⟨Q, hQ, h⟩ := Option.bind_eq_some_iff.mp h
  obtain rfl := Option.some.inj hQ
  obtain ⟨P, hmul, h⟩ := Option.bind_eq_some_iff.mp h
  obtain ⟨ser, hser, h⟩ := Option.bind_eq_some_iff.mp h
  unfold ecPubkeyTweakMul at hmul
  dsimp only at hmul
  split at hmul
  · cases hmul
  · rename_i hfactor
    obtain rfl := Option.some.inj hmul
    rw [ecmult, zero_nsmul, add_zero] at hser
    unfold ecPubkeySerialize at hser
    split at hser
    · cases hser
    · rename_i hP
      obtain rfl := Option.some.inj hser
      obtain ⟨rfl, rfl⟩ := Prod.mk.inj (Option.some.inj h)
      refine ⟨by omega, by omega, hP, ?_, ?_⟩
      · exact List.take_left' (BigEndian.length_ofNat _ _)
      · exact getD_serialized_and_one _ _ _

end Curve

/-! ### The signature -/

theorem elim_bind_eq_ok {ε α β : Type} {o : Option α} {err : ε} {f : α → Except ε β} {b : β}
    (h : o.elim (throw err) pure >>= f = Except.ok b) : ∃ a, o = some a ∧ f a = .ok b := by
  cases o with
  | none => cases h
  | some a => exact ⟨a, rfl, h⟩

section Sign

variable {G : Type} [AddCommGroup G] [DecidableEq G] (C : Curve G)

/-- The point of a secret key, on its even side. -/
def Curve.publicPoint (seckey : List UInt8) : G :=
  C.points.even (BigEndian.toNat seckey • C.g)

/-- The equation of BIP-340. -/
def Curve.Signed (P : G) (msg sig : List UInt8) : Prop :=
  ∃ R, R ≠ 0 ∧ C.odd R = false ∧ sig.take 32 = BigEndian.ofNat 32 (C.x R) ∧
    sig.length = 64 ∧ BigEndian.toNat (sig.drop 32) < kOrder ∧
    BigEndian.toNat (sig.drop 32) • C.g =
      R + (BigEndian.toNat (taggedHash kChallengeTag
        (sig.take 32 ++ BigEndian.ofNat 32 (C.x P) ++ msg)) % kOrder) • P

/-- The values which the signer computes on its way. -/
theorem schnorrSign_eq_ok {seckey msg aux sig : List UInt8}
    (h : schnorrSign C seckey msg aux = .ok sig) :
    ∃ px pOdd d k' rx rOdd k e ed s, scalarMulG C seckey = some (px, pOdd) ∧
      negateIf pOdd seckey = some d ∧ scalarMulG C k' = some (rx, rOdd) ∧
      negateIf rOdd k' = some k ∧
      reduceModN (taggedHash kChallengeTag (rx ++ px ++ msg)) = some e ∧
      ecSeckeyTweakMul e d = some ed ∧ ecSeckeyTweakAdd k ed = some s ∧ sig = rx ++ s := by
  unfold schnorrSign at h
  split at h
  · cases h
  · obtain ⟨⟨px, pOdd⟩, hpx, h⟩ := elim_bind_eq_ok h
    obtain ⟨d, hd, h⟩ := elim_bind_eq_ok h
    obtain ⟨k', hk', h⟩ := elim_bind_eq_ok h
    obtain ⟨⟨rx, rOdd⟩, hrx, h⟩ := elim_bind_eq_ok h
    obtain ⟨k, hk, h⟩ := elim_bind_eq_ok h
    obtain ⟨e, he, h⟩ := elim_bind_eq_ok h
    obtain ⟨ed, hed, h⟩ := elim_bind_eq_ok h
    obtain ⟨s, hs, h⟩ := elim_bind_eq_ok h
    exact ⟨px, pOdd, d, k', rx, rOdd, k, e, ed, s, hpx, hd, hrx, hk, he, hed, hs,
      (Except.ok.inj h).symm⟩

/-- Every signature satisfies the equation. -/
theorem signed_of_schnorrSign {seckey msg aux sig : List UInt8}
    (h : schnorrSign C seckey msg aux = .ok sig) : C.Signed (C.publicPoint seckey) msg sig := by
  obtain ⟨px, pOdd, d, k', rx, rOdd, k, e, ed, s, hpx, hd, hrx, hk, he, hed, hs, rfl⟩ :=
    schnorrSign_eq_ok C h
  obtain ⟨hdpos, hdlt, hPne, hpx, hpOdd⟩ := C.scalarMulG_eq_some hpx
  obtain ⟨hkpos, hklt, hRne, hrx, hrOdd⟩ := C.scalarMulG_eq_some hrx
  obtain ⟨hslen, hslt, hsum⟩ := ecSeckeyTweakAdd_eq_some hs
  have hed := ecSeckeyTweakMul_eq_some hed
  obtain ⟨he, -⟩ := reduceModN_eq_some (length_taggedHash _ _) he
  have hxlen : rx.length = 32 := by rw [hrx, BigEndian.length_ofNat]
  have hdG : BigEndian.toNat d • C.g = C.publicPoint seckey := by
    rw [negateIf_eq_some hdpos hdlt hd, hpOdd]
    exact Schnorr.ite_sub_smul C.order_smul C.points (Nat.le_of_lt hdlt)
  have hkG : BigEndian.toNat k • C.g = C.points.even (BigEndian.toNat k' • C.g) := by
    rw [negateIf_eq_some hkpos hklt hk, hrOdd]
    exact Schnorr.ite_sub_smul C.order_smul C.points (Nat.le_of_lt hklt)
  have hPx : C.x (C.publicPoint seckey) = C.x (BigEndian.toNat seckey • C.g) :=
    Schnorr.Points.x_even (C := C.points) _
  have hRx : C.x (C.points.even (BigEndian.toNat k' • C.g)) =
      C.x (BigEndian.toNat k' • C.g) :=
    Schnorr.Points.x_even (C := C.points) _
  refine ⟨C.points.even (BigEndian.toNat k' • C.g), Schnorr.Points.even_ne_zero hRne,
    Schnorr.Points.odd_even (C := C.points) hRne, ?_, ?_, ?_, ?_⟩
  · rw [List.take_left' hxlen, hRx, hrx]
  · rw [List.length_append, hxlen, hslen]
  · rwa [List.drop_left' hxlen]
  · rw [List.drop_left' hxlen, List.take_left' hxlen, hPx, ← hpx, ← he, hsum, hed, ← hdG,
      ← hkG, Nat.add_mod_mod]
    exact Schnorr.signature_smul C.order_smul _ _ _

/-! ### The verifier -/

/-- The library feeds the hash in pieces, the signer in one. -/
theorem schnorrsigChallenge_eq (r msg pubkey : List UInt8) :
    Curve.schnorrsigChallenge r msg pubkey =
      BigEndian.toNat (taggedHash kChallengeTag (r ++ pubkey ++ msg)) % kOrder := by
  have hbuf : ∀ {c : Sha256Ctx} {data : List UInt8}, c.buf.length < 64 →
      (sha256Update c data).buf.length < 64 := by
    intro c data hc
    rw [sha256Update_eq hc]
    exact Sha256Ctx.foldl_push_buf_lt hc data
  have hinit : sha256Init.buf.length < 64 := Nat.zero_lt_succ _
  unfold Curve.schnorrsigChallenge taggedHash
  dsimp only
  rw [sha256Update_append (hbuf (hbuf hinit)), sha256Update_append (hbuf (hbuf hinit))]

omit [DecidableEq G] in
/-- The record of the even point of a coordinate. -/
theorem xonlyPubkeyParse_eq {P : G} (hP : P ≠ 0) (hodd : C.odd P = false) :
    C.xonlyPubkeyParse (BigEndian.ofNat 32 (C.x P)) =
        some (BigEndian.ofNat 32 (C.x P) ++ BigEndian.ofNat 32 (C.y P)) ∧
      C.xonlyPubkeyLoad (BigEndian.ofNat 32 (C.x P) ++ BigEndian.ofNat 32 (C.y P)) = some P := by
  have hx : BigEndian.toNat (BigEndian.ofNat 32 (C.x P)) = C.x P :=
    BigEndian.toNat_ofNat_of_lt (Nat.lt_trans (C.x_lt P) (by decide))
  have hy : BigEndian.toNat (BigEndian.ofNat 32 (C.y P)) = C.y P :=
    BigEndian.toNat_ofNat_of_lt (Nat.lt_trans (C.y_lt P hP).2 (by decide))
  have hlen := BigEndian.length_ofNat 32 (C.x P)
  have hset : C.setXo (C.x P) false = some P :=
    (C.setXo_eq_some _ _ _).mpr ⟨hP, rfl, hodd⟩
  constructor
  · rw [Curve.xonlyPubkeyParse, feSetB32Limit, hx, if_pos (C.x_lt P)]
    simp only [Option.bind_eq_bind, Option.bind_some, hset]
    rfl
  · rw [Curve.xonlyPubkeyLoad, List.take_left' hlen, List.drop_left' hlen, hx, hy]
    exact (C.setXo_eq_some _ _ _).mpr ⟨hP, rfl, rfl⟩

/-- The library accepts what satisfies the equation. -/
theorem schnorrsigVerify_of_signed {P : G} (hP : P ≠ 0) (hodd : C.odd P = false)
    (horder : kOrder • P = 0) {msg sig : List UInt8} (h : C.Signed P msg sig) :
    C.schnorrsigVerify sig msg
      (BigEndian.ofNat 32 (C.x P) ++ BigEndian.ofNat 32 (C.y P)) = true := by
  obtain ⟨R, hR, hRodd, hr, hlen, hs, heq⟩ := h
  have hx : BigEndian.toNat (BigEndian.ofNat 32 (C.x R)) = C.x R :=
    BigEndian.toNat_ofNat_of_lt (Nat.lt_trans (C.x_lt R) (by decide))
  have hfe : feSetB32Limit (sig.take 32) = some (C.x R) := by
    rw [feSetB32Limit, hr, hx, if_pos (C.x_lt R)]
  have he : Curve.schnorrsigChallenge (sig.take 32) msg (BigEndian.ofNat 32 (C.x P)) ≤ kOrder :=
    Nat.le_of_lt (Nat.mod_lt _ (by decide))
  rw [← schnorrsigChallenge_eq] at heq
  have hrecover := Schnorr.recover horder he heq
  rw [Curve.schnorrsigVerify, hfe, (xonlyPubkeyParse_eq C hP hodd).2]
  dsimp only
  rw [if_neg (Nat.not_le.mpr hs), Curve.ecmult, hrecover, if_neg hR, hRodd]
  simp

/-! ### Events -/

omit [AddCommGroup G] [DecidableEq G] in
theorem hexPairs_hexLowercase (bytes : List UInt8) :
    hexPairs (bytes.flatMap fun b => [hexChar (b.toNat / 16), hexChar (b.toNat % 16)]) =
      some bytes := by
  have hdigit : ∀ n < 16, hexDigit (hexChar n) = some n := by decide
  induction bytes with
  | nil => rfl
  | cons b bytes ih =>
      have hb := b.toNat_lt
      have hbyte : UInt8.ofNat (16 * (b.toNat / 16) + b.toNat % 16) = b := by
        rw [Nat.div_add_mod, UInt8.ofNat_toNat]
      rw [List.flatMap_cons, List.cons_append, List.cons_append, List.nil_append, hexPairs,
        hdigit _ (by omega), hdigit _ (by omega), ih]
      simp only [Option.bind_eq_bind, Option.bind_some, hbyte]
      rfl

theorem hexDecode_hexLowercase {bytes : List UInt8} {n : ℕ} (h : bytes.length = n) :
    hexDecode (hexLowercase bytes) n = some bytes := by
  have hlen : (hexLowercase bytes).length = n * 2 := by
    rw [hexLowercase, String.length_ofList, ← h]
    simp [List.length_flatMap]
  rw [hexDecode, if_neg (not_not.mpr hlen), hexLowercase, String.toList_ofList]
  exact hexPairs_hexLowercase bytes

theorem length_eventId (ev : Event) : (eventId ev).length = 32 := by
  rw [eventId, sha256]
  exact length_sha256Final _

/-- The id does not depend on the id and the signature which the event carries. -/
theorem eventId_sig (ev : Event) (id sig : String) :
    eventId { ev with id := id, sig := sig } = eventId ev :=
  congrArg (fun canon : List Char => sha256 (canon.map byteOfChar)) rfl

/-- What a signed event carries. -/
theorem signEvent_eq_ok {seckey aux : List UInt8} {ev : Event}
    (h : (signEvent C seckey aux ev).1 = .ok ()) :
    ∃ px odd sig, scalarMulG C seckey = some (px, odd) ∧
      schnorrSign C seckey (eventId { ev with pubkey := hexLowercase px }) aux = .ok sig ∧
      (signEvent C seckey aux ev).2 =
        { ev with
          pubkey := hexLowercase px
          id := hexLowercase (eventId { ev with pubkey := hexLowercase px })
          sig := hexLowercase sig } := by
  unfold signEvent at h ⊢
  cases hpk : derivePubkeyXOnly C seckey with
  | error err =>
      rw [hpk] at h
      cases h
  | ok px =>
      rw [hpk] at h
      obtain ⟨odd, hodd⟩ : ∃ odd, scalarMulG C seckey = some (px, odd) := by
        unfold derivePubkeyXOnly at hpk
        split at hpk
        · cases hpk
        · split at hpk
          · cases hpk
          · rename_i x odd hmul
            cases hpk
            exact ⟨odd, hmul⟩
      cases hsign : schnorrSign C seckey (eventId { ev with pubkey := hexLowercase px }) aux with
      | error err =>
          dsimp only at h
          rw [hsign] at h
          cases h
      | ok sig =>
          refine ⟨px, odd, sig, hodd, hsign, ?_⟩
          dsimp only
          rw [hsign]

/-- The public key and the signature of an event which satisfies the equation. -/
theorem verifyEvent_of_signed {P : G} (hP : P ≠ 0) (hodd : C.odd P = false)
    (horder : kOrder • P = 0) {ev : Event} {sig : List UInt8}
    (hpubkey : ev.pubkey = hexLowercase (BigEndian.ofNat 32 (C.x P)))
    (hid : ev.id = hexLowercase (eventId ev)) (hsig : ev.sig = hexLowercase sig)
    (h : C.Signed P (eventId ev) sig) : verifyEvent C.secp256k1 ev = .ok := by
  have hlen : sig.length = 64 := by
    obtain ⟨R, -, -, -, hlen, -⟩ := h
    exact hlen
  refine (verifyEvent_eq_ok_iff C.secp256k1 ev).mpr ⟨_, sig, _, ?_, ?_, ?_,
    (xonlyPubkeyParse_eq C hP hodd).1, schnorrsigVerify_of_signed C hP hodd horder h⟩
  · rw [hpubkey, hexDecode_hexLowercase (BigEndian.length_ofNat _ _)]
  · rw [hsig, hexDecode_hexLowercase hlen]
  · rw [hid, hexDecode_hexLowercase (length_eventId ev), eventId]

/-- The verifier accepts every event which the signer returns. -/
theorem verifyEvent_of_signEvent {seckey aux : List UInt8} {ev : Event}
    (h : (signEvent C seckey aux ev).1 = .ok ()) :
    verifyEvent C.secp256k1 (signEvent C seckey aux ev).2 = .ok := by
  obtain ⟨px, odd, sig, hpx, hsig, hev⟩ := signEvent_eq_ok C h
  obtain ⟨hdpos, hdlt, hPne, hpx, -⟩ := C.scalarMulG_eq_some hpx
  have hPx : C.x (C.publicPoint seckey) = C.x (BigEndian.toNat seckey • C.g) :=
    Schnorr.Points.x_even (C := C.points) _
  have horder : kOrder • C.publicPoint seckey = 0 := by
    rw [Curve.publicPoint, ← Schnorr.ite_sub_smul C.order_smul C.points (Nat.le_of_lt hdlt),
      ← mul_nsmul, Nat.mul_comm, mul_nsmul, C.order_smul, nsmul_zero]
  have hsigned := signed_of_schnorrSign C hsig
  rw [← eventId_sig _ (hexLowercase (eventId { ev with pubkey := hexLowercase px }))
    (hexLowercase sig)] at hsigned
  rw [hev]
  refine verifyEvent_of_signed C (Schnorr.Points.even_ne_zero hPne)
    (Schnorr.Points.odd_even (C := C.points) hPne) horder ?_ ?_ rfl hsigned
  · rw [hpx, ← hPx, Curve.publicPoint]
  · exact congrArg hexLowercase
      (eventId_sig { ev with pubkey := hexLowercase px } _ _).symm

/-- Every signature satisfies the equation for the even point of the key, and every event
which the signer returns is accepted. -/
theorem signed_verifies :
    (∀ seckey msg aux sig, schnorrSign C seckey msg aux = .ok sig →
      C.odd (C.publicPoint seckey) = false ∧
        C.x (C.publicPoint seckey) = C.x (BigEndian.toNat seckey • C.g) ∧
        C.Signed (C.publicPoint seckey) msg sig) ∧
    ∀ seckey aux ev, (signEvent C seckey aux ev).1 = .ok () →
      verifyEvent C.secp256k1 (signEvent C seckey aux ev).2 = .ok := by
  refine ⟨fun seckey msg aux sig h => ?_, fun seckey aux ev h => verifyEvent_of_signEvent C h⟩
  obtain ⟨px, pOdd, d, k', rx, rOdd, k, e, ed, s, hpx, -⟩ := schnorrSign_eq_ok C h
  obtain ⟨-, -, hP, -⟩ := C.scalarMulG_eq_some hpx
  exact ⟨Schnorr.Points.odd_even (C := C.points) hP, Schnorr.Points.x_even (C := C.points) _,
    signed_of_schnorrSign C h⟩

end Sign

/-- A note to be signed with the key `3`. -/
def gmNote : Event where
  createdAt := 1700000000
  kind := 1
  content := "gm"

theorem signed_verifies_gmNote :
    LogPoint.curve.Signed (LogPoint.curve.publicPoint (BigEndian.ofNat 32 3))
        (BigEndian.ofNat 32
          0x7508deae5246ea55ee4723d9488e2f2fb77179f635cc7548e6f7be588ab172bb)
        (BigEndian.ofNat 32
            0x17a261b1573c7e4a425f3ab5ad18484450994f7fbdc84f871db5bc4993e148dc ++
          BigEndian.ofNat 32
            0x6a6348e3d78facbe29d875ba2c3436b25a4c911380152b94639606ee4dd3d678) ∧
      verifyEvent LogPoint.curve.secp256k1
        (signEvent LogPoint.curve (BigEndian.ofNat 32 3) (List.replicate 32 0) gmNote).2 =
        .ok := by
  refine ⟨((signed_verifies LogPoint.curve).1 _ _ (List.replicate 32 0) _ ?_).2.2,
    (signed_verifies LogPoint.curve).2 _ _ _ ?_⟩
  · decide +kernel
  · decide +kernel

end Nostr

end BtClock
