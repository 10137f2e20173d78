import BtClock.Nostr.Secp256k1
import Mathlib.Algebra.Group.InjSurj
import Mathlib.Data.ZMod.Basic

/-!
# The curve by logarithms

The group of the curve is cyclic, so a point can be kept as its logarithm to the generator.
The coordinates are the true ones at the generator and at two points more.
-/

namespace BtClock

namespace Nostr

structure LogPoint where
  log : ℕ
  log_lt : log < kOrder
  deriving DecidableEq

namespace LogPoint

theorem kOrder_pos : 0 < kOrder := by
  decide

/-- The multiple of the generator. -/
def ofNat (v : ℕ) : LogPoint :=
  ⟨v % kOrder, Nat.mod_lt v kOrder_pos⟩

instance : Zero LogPoint := ⟨ofNat 0⟩

instance : Add LogPoint := ⟨fun P Q => ofNat (P.log + Q.log)⟩

instance : Neg LogPoint := ⟨fun P => ofNat (kOrder - P.log)⟩

instance : Sub LogPoint := ⟨fun P Q => ofNat (P.log + (kOrder - Q.log))⟩

instance : SMul ℕ LogPoint := ⟨fun k P => ofNat (k * P.log)⟩

instance : SMul ℤ LogPoint := ⟨fun k P => ofNat (k * P.log % kOrder).toNat⟩

def toZMod (P : LogPoint) : ZMod kOrder :=
  P.log

theorem toZMod_ofNat (v : ℕ) : (ofNat v).toZMod = v :=
  ZMod.natCast_mod v kOrder

theorem toZMod_injective : Function.Injective toZMod := by
  intro P Q h
  have hmod := (ZMod.natCast_eq_natCast_iff' P.log Q.log kOrder).mp h
  rw [Nat.mod_eq_of_lt P.log_lt, Nat.mod_eq_of_lt Q.log_lt] at hmod
  cases P
  cases Q
  congr

theorem cast_sub (P : LogPoint) : ((kOrder - P.log : ℕ) : ZMod kOrder) = -P.toZMod := by
  rw [Nat.cast_sub (Nat.le_of_lt P.log_lt), ZMod.natCast_self, zero_sub, toZMod]

instance : AddCommGroup LogPoint :=
  toZMod_injective.addCommGroup toZMod
    ((toZMod_ofNat 0).trans Nat.cast_zero)
    (fun P Q => (toZMod_ofNat _).trans (Nat.cast_add _ _))
    (fun P => (toZMod_ofNat _).trans (cast_sub P))
    (fun P Q => (toZMod_ofNat _).trans <| by
      rw [Nat.cast_add, cast_sub, sub_eq_add_neg]
      rfl)
    (fun P k => (toZMod_ofNat _).trans <| by rw [Nat.cast_mul, nsmul_eq_mul, toZMod])
    (fun P k => (toZMod_ofNat _).trans <| by
      have hnonneg : 0 ≤ k * P.log % (kOrder : ℤ) :=
        Int.emod_nonneg _ (Int.natCast_ne_zero.mpr kOrder_pos.ne')
      rw [← Int.cast_natCast, Int.toNat_of_nonneg hnonneg, ZMod.intCast_mod, Int.cast_mul,
        Int.cast_natCast, zsmul_eq_mul, toZMod])

/-! ### The coordinates -/

/-- The smaller logarithm of a point and its opposite. -/
def fold (P : LogPoint) : ℕ :=
  min P.log (kOrder - P.log)

/-- The logarithms whose points are known, with their coordinates. -/
def known : List (ℕ × ℕ × ℕ) :=
  [(1, 0x79be667ef9dcbbac55a06295ce870b07029bfcdb2dce28d959f2815b16f81798,
      0x483ada7726a3c4655da4fbfc0e1108a8fd17b448a68554199c47d08ffb10d4b8),
    (3, 0xf9308a019258c31049344f85f89d5229b531c845836f99b08601f113bce036f9,
      0x388f7b0f632de8140fe337e62a37f3566500a99934c2231b6cb9fd7584b8e672),
    (0x2e2c712aad17489b2eae80eee6249c3e56a43e8eaf1df48000c2a5f41c366995,
      0x17a261b1573c7e4a425f3ab5ad18484450994f7fbdc84f871db5bc4993e148dc,
      0x5fba85e8dd18243aeaf2438b2029a762ef815970d040085a377bb9dfb648bf40)]

/-- Two numbers change their places. -/
def swap (a b v : ℕ) : ℕ :=
  if v = a then b else if v = b then a else v

/-- The coordinate of a folded logarithm. -/
def xOf (v : ℕ) : ℕ :=
  known.foldl (fun v entry => swap entry.1 entry.2.1 v) v

/-- The folded logarithm of a coordinate. -/
def logOf (v : ℕ) : ℕ :=
  known.foldr (fun entry v => swap entry.1 entry.2.1 v) v

/-- The even one of the two other coordinates. -/
def yOf (v : ℕ) : ℕ :=
  ((known.lookup v).map Prod.snd).getD 2

def y (P : LogPoint) : ℕ :=
  if P.log ≤ kOrder / 2 then yOf P.fold else kField - yOf P.fold

/-- The point of a coordinate and a parity. -/
def setXo (v : ℕ) (odd : Bool) : Option LogPoint :=
  if 0 < logOf v ∧ logOf v ≤ kOrder / 2 then
    some (ofNat (if odd then kOrder - logOf v else logOf v))
  else none

theorem swap_swap (a b v : ℕ) : swap a b (swap a b v) = v := by
  unfold swap
  grind

theorem swap_lt {a b v : ℕ} (ha : a < kField) (hb : b < kField) (hv : v < kField) :
    swap a b v < kField := by
  unfold swap
  grind

theorem logOf_xOf (v : ℕ) : logOf (xOf v) = v := by
  simp only [logOf, xOf, known, List.foldl_cons, List.foldl_nil, List.foldr_cons,
    List.foldr_nil, swap_swap]

theorem xOf_logOf (v : ℕ) : xOf (logOf v) = v := by
  simp only [logOf, xOf, known, List.foldl_cons, List.foldl_nil, List.foldr_cons,
    List.foldr_nil, swap_swap]

theorem xOf_lt {v : ℕ} (h : v < kField) : xOf v < kField :=
  swap_lt (by decide) (by decide) (swap_lt (by decide) (by decide)
    (swap_lt (by decide) (by decide) h))

theorem yOf_even (v : ℕ) : yOf v % 2 = 0 ∧ 0 < yOf v ∧ yOf v < kField := by
  unfold yOf
  cases h : known.lookup v with
  | none => decide
  | some entry =>
      have hmem : (v, entry) ∈ known := by
        obtain ⟨before, after, heq, -⟩ := List.lookup_eq_some_iff.mp h
        simp [heq]
      have hall : known.all (fun entry => decide (entry.2.2 % 2 = 0 ∧ 0 < entry.2.2 ∧
          entry.2.2 < kField)) = true := by decide
      exact of_decide_eq_true (List.all_eq_true.mp hall _ hmem)

theorem neg_log {P : LogPoint} (h : P ≠ 0) : (-P).log = kOrder - P.log ∧ 0 < P.log := by
  have hpos : 0 < P.log := by
    refine Nat.pos_of_ne_zero fun hzero => h ?_
    apply toZMod_injective
    rw [toZMod, hzero]
    exact (toZMod_ofNat 0).symm
  exact ⟨Nat.mod_eq_of_lt (Nat.sub_lt kOrder_pos hpos), hpos⟩

theorem kOrder_odd : kOrder % 2 = 1 := by
  decide

theorem kField_odd : kField % 2 = 1 := by
  decide

theorem fold_neg {P : LogPoint} (h : P ≠ 0) : (-P).fold = P.fold := by
  obtain ⟨hneg, hpos⟩ := neg_log h
  have hlt := P.log_lt
  rw [fold, fold, hneg]
  omega

theorem y_neg {P : LogPoint} (h : P ≠ 0) : (-P).y = kField - P.y := by
  obtain ⟨hneg, hpos⟩ := neg_log h
  have hodd := kOrder_odd
  have hlt := P.log_lt
  obtain ⟨-, -, hy⟩ := yOf_even P.fold
  rw [y, y, fold_neg h, hneg]
  by_cases hsmall : P.log ≤ kOrder / 2
  · rw [if_pos hsmall, if_neg (by omega)]
  · rw [if_neg hsmall, if_pos (by omega)]
    omega

/-- The upper half of the points is odd. -/
theorem y_mod_two (P : LogPoint) : (P.y % 2 == 1) = decide (kOrder / 2 < P.log) := by
  have hfield := kField_odd
  obtain ⟨heven, hpos, hlt⟩ := yOf_even P.fold
  rw [y]
  split
  · rename_i hsmall
    rw [heven, decide_eq_false (Nat.not_lt.mpr hsmall)]
    rfl
  · rename_i hlarge
    have hodd : (kField - yOf P.fold) % 2 = 1 := by omega
    rw [hodd, decide_eq_true (Nat.not_le.mp hlarge)]
    rfl

theorem ofNat_log (P : LogPoint) : ofNat P.log = P :=
  toZMod_injective (toZMod_ofNat _)

theorem setXo_eq_some (v : ℕ) (odd : Bool) (P : LogPoint) :
    setXo v odd = some P ↔ P ≠ 0 ∧ xOf P.fold = v ∧ (P.y % 2 == 1) = odd := by
  have horder := kOrder_odd
  rw [y_mod_two]
  constructor
  · intro h
    unfold setXo at h
    split at h
    · rename_i hlog
      obtain rfl := Option.some.inj h
      have hval : (ofNat (if odd then kOrder - logOf v else logOf v)).log =
          if odd then kOrder - logOf v else logOf v :=
        Nat.mod_eq_of_lt (by split <;> omega)
      have hfold : (ofNat (if odd then kOrder - logOf v else logOf v)).fold = logOf v := by
        rw [fold, hval]
        split <;> omega
      refine ⟨fun hzero => ?_, by rw [hfold, xOf_logOf], ?_⟩
      · have hlog0 : (ofNat (if odd then kOrder - logOf v else logOf v)).log = 0 :=
          congrArg log hzero
        rw [hval] at hlog0
        split at hlog0 <;> omega
      · rw [hval]
        cases odd with
        | false => simpa using hlog.2
        | true =>
            rw [if_pos rfl, decide_eq_true_eq]
            omega
    · cases h
  · rintro ⟨hP, rfl, rfl⟩
    obtain ⟨-, hpos⟩ := neg_log hP
    have hlt := P.log_lt
    have hfold : 0 < P.fold ∧ P.fold ≤ kOrder / 2 := by
      unfold fold
      omega
    rw [setXo, logOf_xOf, if_pos hfold]
    have hlog : (if decide (kOrder / 2 < P.log) then kOrder - P.fold else P.fold) = P.log := by
      simp only [decide_eq_true_eq]
      unfold fold
      split <;> omega
    rw [hlog, ofNat_log]

/-- The curve. -/
def curve : Curve LogPoint where
  g := ofNat 1
  x P := xOf P.fold
  y := y
  setXo := setXo
  order_smul := by decide
  x_lt P := xOf_lt (Nat.lt_of_le_of_lt (Nat.min_le_left _ _)
    (Nat.lt_trans P.log_lt (by decide)))
  y_lt P _ := by
    obtain ⟨-, hpos, hlt⟩ := yOf_even P.fold
    unfold y
    split <;> omega
  x_neg P := by
    by_cases h : P = 0
    · rw [h, neg_zero]
    · rw [fold_neg h]
  y_neg P := y_neg
  setXo_eq_some := setXo_eq_some
  g_ne_zero := by decide
  x_g := by decide
  y_g := by decide

end LogPoint

end Nostr

end BtClock
