import BtClock.Data.Report
import BtClock.Transition.Join

/-!
# The hub does not depend on the order of the reports

The sources race, so their reports reach the hub in any order.  The height and the two
received times are joined, and so the hub holds the largest of those reported.  A merge
compares and stores every other field by its value, and its result tells whether
something was stored, as long as no reported double is a NaN.
-/

namespace BtClock

namespace Data

/-- A merge of one field tells exactly whether it changed the field, and merging the same
report again changes nothing. -/
structure ExactMerge {α β : Type*} (m : α → β → α × Bool) (other : β) : Prop where
  changed : ∀ mine, (m mine other).2 = true ↔ (m mine other).1 ≠ mine
  settles : ∀ mine, (m (m mine other).1 other).2 = false

/-- A field which takes the reported value wherever the test `c` finds a difference. -/
theorem ExactMerge.of_test {α β : Type*} {m : α → β → α × Bool} {other : β}
    (v : α) (c : α → Prop) [DecidablePred c]
    (hm : ∀ mine, m mine other = if c mine then (v, true) else (mine, false))
    (hv : ¬ c v) : ExactMerge m other where
  changed mine := by
    rw [hm]
    by_cases hc : c mine
    · have hne : v ≠ mine := fun heq => hv (heq ▸ hc)
      simp [hc, hne]
    · simp [hc]
  settles mine := by
    rw [hm mine]
    by_cases hc : c mine
    · simp [hc, hm, hv]
    · simp [hc, hm]

/-- A report which does not carry the field. -/
theorem ExactMerge.of_absent {α β : Type*} {m : α → β → α × Bool} {other : β}
    (hm : ∀ mine, m mine other = (mine, false)) : ExactMerge m other where
  changed mine := by simp [hm]
  settles mine := by simp [hm]

theorem doubleDiffers_self_iff (x : Option Float) :
    doubleDiffers x x = false ↔ ∀ v, x = some v → v.isNaN = false := by
  cases x with
  | none => simp [doubleDiffers]
  | some v => simp [doubleDiffers, Double.beq_self_iff]

theorem doubleDiffers_nan (mine : Option Float) {v : Float} (hv : v.isNaN = true) :
    doubleDiffers mine (some v) = true := by
  cases mine with
  | none => rfl
  | some x =>
      have hne : (x == v) = false := by
        by_contra hx
        rw [Bool.not_eq_false] at hx
        have hself := Double.beq_trans (Double.beq_symm hx) hx
        rw [Double.beq_self_iff, hv] at hself
        cases hself
      simp [doubleDiffers, hne]

namespace DataSnapshot

/-- No double which a report carries is a NaN.  Bitaxe readings without a host name are
not read. -/
structure NanFree (p : DataSnapshot) : Prop where
  precise : ∀ v, p.blockFeePrecise = some v → v.isNaN = false
  hashrate : p.bitaxe.hostname ≠ "" →
    ∀ v, p.bitaxe.hashrateGhs = some v → v.isNaN = false
  temperature : p.bitaxe.hostname ≠ "" →
    ∀ v, p.bitaxe.temperatureC = some v → v.isNaN = false

/-! ### The fields -/

theorem exact_mergeBlockHeight (other : Option UInt32) :
    ExactMerge mergeBlockHeight other := by
  cases other with
  | none => exact .of_absent fun _ => rfl
  | some h =>
      exact .of_test (some h)
        (fun mine => mine ≠ some h ∧ isValidUpdate (mine.getD 0) h = true)
        (fun _ => rfl) (by simp)

theorem exact_mergeBlockFee (other : Option Int32) : ExactMerge mergeBlockFee other := by
  cases other with
  | none => exact .of_absent fun _ => rfl
  | some fee => exact .of_test (some fee) (· ≠ some fee) (fun _ => rfl) (by simp)

theorem exact_mergeBlockFeePrecise (other : Option Float)
    (hnan : ∀ v, other = some v → v.isNaN = false) :
    ExactMerge mergeBlockFeePrecise other := by
  cases other with
  | none => exact .of_absent fun _ => rfl
  | some fee =>
      refine .of_test (some fee) (fun mine => doubleDiffers mine (some fee) = true)
        (fun _ => rfl) ?_
      rw [Bool.not_eq_true]
      exact (doubleDiffers_self_iff _).mpr hnan

theorem exact_mergePool (other : PoolStats) : ExactMerge mergePool other :=
  .of_test other (fun mine => other.name ≠ "" ∧ mine ≠ other) (fun _ => rfl) (by simp)

theorem exact_mergeBitaxe (other : BitaxeStats)
    (hhash : other.hostname ≠ "" → ∀ v, other.hashrateGhs = some v → v.isNaN = false)
    (htemp : other.hostname ≠ "" → ∀ v, other.temperatureC = some v → v.isNaN = false) :
    ExactMerge mergeBitaxe other := by
  refine .of_test other _ (fun _ => rfl) ?_
  rintro ⟨hname, hdiff⟩
  have hhash' := (doubleDiffers_self_iff _).mpr (hhash hname)
  have htemp' := (doubleDiffers_self_iff _).mpr (htemp hname)
  simp [hhash', htemp'] at hdiff

theorem exact_mergeLatestZap (other : LatestZap) : ExactMerge mergeLatestZap other :=
  .of_test other (fun mine => other.receivedMs > mine.receivedMs) (fun _ => rfl)
    Std.lt_irrefl

theorem exact_mergeNwcBalance (other : Option Int64) :
    ExactMerge mergeNwcBalance other := by
  cases other with
  | none => exact .of_absent fun _ => rfl
  | some msat => exact .of_test (some msat) (· ≠ some msat) (fun _ => rfl) (by simp)

theorem exact_mergeNwcLastPayment (other : NwcPayment) :
    ExactMerge mergeNwcLastPayment other :=
  .of_test other (fun mine => other.receivedMs > mine.receivedMs) (fun _ => rfl)
    Std.lt_irrefl

/-- The loop over the prices stores nothing when the map has every one of them. -/
theorem foldl_mergePrice_of_known {entries : List ((_ : String) × String)}
    {st : AList (fun _ : String => String) × Bool}
    (h : ∀ entry ∈ entries, st.1.lookup entry.1 = some entry.2) :
    entries.foldl mergePrice st = st := by
  induction entries with
  | nil => rfl
  | cons entry entries ih =>
      have hstep : mergePrice st entry = st :=
        if_neg (not_not_intro (h entry List.mem_cons_self))
      rw [List.foldl_cons, hstep]
      exact ih fun entry hentry => h entry (List.mem_cons_of_mem _ hentry)

theorem foldl_mergePrice_flag {entries : List ((_ : String) × String)}
    {st : AList (fun _ : String => String) × Bool} (hst : st.2 = true) :
    (entries.foldl mergePrice st).2 = true := by
  induction entries generalizing st with
  | nil => exact hst
  | cons entry entries ih =>
      refine ih ?_
      unfold mergePrice
      split
      · rfl
      · exact hst

theorem foldl_mergePrice_of_flag {entries : List ((_ : String) × String)}
    {st : AList (fun _ : String => String) × Bool}
    (h : (entries.foldl mergePrice st).2 = false) :
    ∀ entry ∈ entries, st.1.lookup entry.1 = some entry.2 := by
  induction entries generalizing st with
  | nil => simp
  | cons entry entries ih =>
      rw [List.foldl_cons] at h
      by_cases hentry : st.1.lookup entry.1 = some entry.2
      · have hstep : mergePrice st entry = st := if_neg (not_not_intro hentry)
        rw [hstep] at h
        exact List.forall_mem_cons.mpr ⟨hentry, ih h⟩
      · have hstep : (mergePrice st entry).2 = true := by
          rw [mergePrice, if_pos hentry]
        rw [foldl_mergePrice_flag hstep] at h
        cases h

theorem mergePrices_flag_iff (mine other : AList fun _ : String => String) :
    (mergePrices mine other).2 = false ↔
      ∀ entry ∈ other.entries, mine.lookup entry.1 = some entry.2 := by
  constructor
  · exact foldl_mergePrice_of_flag
  · intro h
    rw [mergePrices, foldl_mergePrice_of_known h]

theorem lookup_mergePrices (mine : AList fun _ : String => String)
    {other : AList fun _ : String => String}
    {entry : (_ : String) × String} (hentry : entry ∈ other.entries) :
    (mergePrices mine other).1.lookup entry.1 = some entry.2 := by
  have hlookup : other.entries.dlookup entry.1 = some entry.2 :=
    List.mem_dlookup other.nodupKeys hentry
  rw [mergePrices, lookup_foldl_mergePrice _ other.nodupKeys, hlookup, Option.some_or]

theorem exact_mergePrices (other : AList fun _ : String => String) :
    ExactMerge mergePrices other where
  changed mine := by
    rw [← not_iff_not, Bool.not_eq_true, ne_eq, not_not]
    constructor
    · intro h
      rw [mergePrices, foldl_mergePrice_of_known ((mergePrices_flag_iff _ _).mp h)]
    · intro h
      refine (mergePrices_flag_iff _ _).mpr fun entry hentry => ?_
      have hstored := lookup_mergePrices mine hentry
      rwa [h] at hstored
  settles mine := (mergePrices_flag_iff _ _).mpr fun _ => lookup_mergePrices _

/-! ### The whole snapshot -/

/-- The height of a snapshot, where a missing one counts as zero. -/
def reportedHeight (p : DataSnapshot) : ℕ :=
  (p.blockHeight.getD 0).toNat

/-- The merge of one report into the hub: its result tells whether a field changed, the
same report changes nothing again, and the height does not go down. -/
structure ExactChanges (hub p : DataSnapshot) : Prop where
  changed : (hub.merge p).2 = true ↔ (hub.merge p).1 ≠ hub
  settles : ((hub.merge p).1.merge p).2 = false
  height : hub.reportedHeight ≤ (hub.merge p).1.reportedHeight

def zapTime (p : DataSnapshot) : ℤ :=
  p.latestZap.receivedMs.toInt

def paymentTime (p : DataSnapshot) : ℤ :=
  p.nwcLastPayment.receivedMs.toInt

/-- The hub holds the largest reported height, and the latest zap and payment.  A report
without one of the three carries a zero there. -/
structure OrderFree (hub : DataSnapshot) (ps : Multiset DataSnapshot) : Prop where
  height : hub.reportedHeight = (ps.map reportedHeight).fold max 0
  height_ne_zero : hub.blockHeight ≠ some 0
  zapTime : hub.zapTime = (ps.map zapTime).fold max 0
  latestZap : hub.latestZap = {} ∨ ∃ p ∈ ps, hub.latestZap = p.latestZap
  paymentTime : hub.paymentTime = (ps.map paymentTime).fold max 0
  lastPayment : hub.nwcLastPayment = {} ∨ ∃ p ∈ ps, hub.nwcLastPayment = p.nwcLastPayment

/-- A reported height is taken when it is above the one of the hub. -/
theorem getD_mergeBlockHeight (mine other : Option UInt32) :
    ((mergeBlockHeight mine other).1.getD 0).toNat =
      max (mine.getD 0).toNat (other.getD 0).toNat := by
  cases other with
  | none => simp [mergeBlockHeight]
  | some h =>
      simp only [mergeBlockHeight, isValidUpdate, Option.getD_some]
      by_cases hh : h = 0
      · simp [hh]
      by_cases heq : mine = some h
      · simp [heq]
      by_cases hprev : mine.getD 0 = 0
      · simp [hh, heq, hprev]
      by_cases hle : mine.getD 0 ≤ h
      · have hle' := UInt32.le_iff_toNat_le.mp hle
        simp [hh, heq, hprev, hle, max_eq_right hle']
      · have hle' := UInt32.le_iff_toNat_le.not.mp hle
        simp [hh, heq, hprev, hle, max_eq_left (not_le.mp hle').le]

theorem mergeBlockHeight_ne_zero {mine : Option UInt32} (hmine : mine ≠ some 0)
    (other : Option UInt32) : (mergeBlockHeight mine other).1 ≠ some 0 := by
  cases other with
  | none => exact hmine
  | some h =>
      simp only [mergeBlockHeight]
      split
      · rename_i hvalid
        rintro heq
        rw [Option.some.inj heq] at hvalid
        simp [isValidUpdate] at hvalid
      · exact hmine

theorem reportedHeight_report (hub p : DataSnapshot) :
    (report hub p).reportedHeight = max hub.reportedHeight p.reportedHeight := by
  rw [reportedHeight, report, merge, getD_mergeBlockHeight]
  rfl

theorem latestZap_report (hub p : DataSnapshot) :
    (report hub p).latestZap = hub.latestZap ∨
      (report hub p).latestZap = p.latestZap := by
  simp only [report, merge, mergeLatestZap]
  split
  · exact .inr rfl
  · exact .inl rfl

theorem zapTime_report (hub p : DataSnapshot) :
    (report hub p).zapTime = max hub.zapTime p.zapTime := by
  simp only [zapTime, report, merge, mergeLatestZap, gt_iff_lt, Int64.lt_iff_toInt_lt]
  split
  · rename_i hlt
    exact (max_eq_right hlt.le).symm
  · rename_i hlt
    exact (max_eq_left (not_lt.mp hlt)).symm

theorem lastPayment_report (hub p : DataSnapshot) :
    (report hub p).nwcLastPayment = hub.nwcLastPayment ∨
      (report hub p).nwcLastPayment = p.nwcLastPayment := by
  simp only [report, merge, mergeNwcLastPayment]
  split
  · exact .inr rfl
  · exact .inl rfl

theorem paymentTime_report (hub p : DataSnapshot) :
    (report hub p).paymentTime = max hub.paymentTime p.paymentTime := by
  simp only [paymentTime, report, merge, mergeNwcLastPayment, gt_iff_lt,
    Int64.lt_iff_toInt_lt]
  split
  · rename_i hlt
    exact (max_eq_right hlt.le).symm
  · rename_i hlt
    exact (max_eq_left (not_lt.mp hlt)).symm

theorem orderFree_run (ps : List DataSnapshot) :
    OrderFree (Transition.run report {} ps) ps where
  height := Transition.run_key_eq_fold_max reportedHeight_report {} ps
  height_ne_zero :=
    Transition.run_invariant (I := fun hub : DataSnapshot => hub.blockHeight ≠ some 0)
      (fun _ p hhub => mergeBlockHeight_ne_zero hhub p.blockHeight) (by simp) ps
  zapTime := Transition.run_key_eq_fold_max zapTime_report {} ps
  latestZap := Transition.run_key_mem latestZap_report {} ps
  paymentTime := Transition.run_key_eq_fold_max paymentTime_report {} ps
  lastPayment := Transition.run_key_mem lastPayment_report {} ps

/-- Two snapshots are the same when every field is. -/
theorem eq_iff_fields (s t : DataSnapshot) :
    s = t ↔ s.blockHeight = t.blockHeight ∧ s.blockFee = t.blockFee ∧
      s.blockFeePrecise = t.blockFeePrecise ∧ s.prices = t.prices ∧ s.pool = t.pool ∧
      s.bitaxe = t.bitaxe ∧ s.latestZap = t.latestZap ∧
      s.nwcBalanceMsat = t.nwcBalanceMsat ∧ s.nwcLastPayment = t.nwcLastPayment := by
  cases s
  cases t
  rw [DataSnapshot.mk.injEq]

theorem exactChanges_of_nanFree {p : DataSnapshot} (hp : NanFree p)
    (hub : DataSnapshot) : ExactChanges hub p where
  changed := by
    have hprecise := exact_mergeBlockFeePrecise p.blockFeePrecise hp.precise
    have hbitaxe := exact_mergeBitaxe p.bitaxe hp.hashrate hp.temperature
    rw [ne_eq, eq_iff_fields]
    simp only [merge, Bool.or_eq_true, (exact_mergeBlockHeight _).changed,
      (exact_mergeBlockFee _).changed, hprecise.changed, (exact_mergePrices _).changed,
      (exact_mergePool _).changed, hbitaxe.changed, (exact_mergeLatestZap _).changed,
      (exact_mergeNwcBalance _).changed, (exact_mergeNwcLastPayment _).changed]
    tauto
  settles := by
    have hprecise := exact_mergeBlockFeePrecise p.blockFeePrecise hp.precise
    have hbitaxe := exact_mergeBitaxe p.bitaxe hp.hashrate hp.temperature
    simp only [merge, (exact_mergeBlockHeight _).settles,
      (exact_mergeBlockFee _).settles, hprecise.settles, (exact_mergePrices _).settles,
      (exact_mergePool _).settles, hbitaxe.settles, (exact_mergeLatestZap _).settles,
      (exact_mergeNwcBalance _).settles, (exact_mergeNwcLastPayment _).settles,
      Bool.or_false]
  height := by
    rw [reportedHeight, reportedHeight, merge, getD_mergeBlockHeight]
    exact le_max_left _ _

/-- A NaN is stored again by every merge. -/
theorem nanFree_of_settles {hub p : DataSnapshot}
    (h : ((hub.merge p).1.merge p).2 = false) : NanFree p := by
  simp only [merge, Bool.or_eq_false_iff] at h
  obtain ⟨⟨⟨⟨⟨⟨⟨⟨-, -⟩, hprecise⟩, -⟩, -⟩, hbitaxe⟩, -⟩, -⟩, -⟩ := h
  refine ⟨fun v hv => ?_, fun hname v hv => ?_, fun hname v hv => ?_⟩
  · by_contra hnan
    rw [Bool.not_eq_false] at hnan
    simp [hv, mergeBlockFeePrecise, doubleDiffers_nan _ hnan] at hprecise
  · by_contra hnan
    rw [Bool.not_eq_false] at hnan
    simp [hv, hname, mergeBitaxe, doubleDiffers_nan _ hnan] at hbitaxe
  · by_contra hnan
    rw [Bool.not_eq_false] at hnan
    simp [hv, hname, mergeBitaxe, doubleDiffers_nan _ hnan] at hbitaxe

/-- The reports are merged independently of their order and every change is told exactly,
if and only if no reported double is a NaN. -/
theorem report_converges_iff (ps : List DataSnapshot) :
    OrderFree (Transition.run report {} ps) ps ∧
        Transition.Along report ExactChanges {} ps ↔
      ∀ p ∈ ps, NanFree p := by
  rw [← Transition.along_const_iff report NanFree {} ps]
  constructor
  · intro h
    exact h.2.mono fun _ _ hexact => nanFree_of_settles hexact.settles
  · intro h
    exact ⟨orderFree_run ps, h.mono fun hub _ hp => exactChanges_of_nanFree hp hub⟩

/-- A report of a fee of NaN. -/
def nanFee : DataSnapshot where
  blockFeePrecise := some (0.0 / 0.0)

/-- The hub takes a fee of NaN as new each time. -/
theorem nan_fee_changes_again :
    ¬ (OrderFree (Transition.run report {} [nanFee]) [nanFee] ∧
      Transition.Along report ExactChanges {} [nanFee]) := by
  intro h
  have hnan := (nanFree_of_settles h.2.1.settles).precise _ rfl
  revert hnan
  decide

end DataSnapshot

end Data

end BtClock
