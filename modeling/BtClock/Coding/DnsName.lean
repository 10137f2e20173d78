import Mathlib.Data.List.Basic
import Mathlib.Data.Nat.Notation

/-!
# Names in a message

A name is a chain of labels which a zero byte or a pointer ends.  To follow the chain through a
message is to find where a name ends, when there is one.
-/

namespace Dns

/-- The labels of a name carry their length, which is at most 63. -/
inductive IsName : List UInt8 → Prop
  | root : IsName [0]
  | pointer (hi lo : UInt8) (h : 192 ≤ hi.toNat) : IsName [hi, lo]
  | label (b : UInt8) (text rest : List UInt8) (hpos : 0 < b.toNat) (hlt : b.toNat < 64)
      (hlen : text.length = b.toNat) (h : IsName rest) : IsName (b :: (text ++ rest))

/-- A question: a name, its type and its class. -/
def IsQuestion (q : List UInt8) : Prop :=
  ∃ name fixed, IsName name ∧ fixed.length = 4 ∧ q = name ++ fixed

/-- The chain of labels from the first offset stops at the second one, at a byte which is no
length of a label. -/
inductive StopsAt (bytes : List UInt8) : ℕ → ℕ → Prop
  | here {p : ℕ} {b : UInt8} (hget : bytes[p]? = some b) (hstop : b = 0 ∨ 64 ≤ b.toNat) :
      StopsAt bytes p p
  | label {p e : ℕ} {b : UInt8} (hget : bytes[p]? = some b) (hpos : 0 < b.toNat)
      (hlt : b.toNat < 64) (h : StopsAt bytes (p + 1 + b.toNat) e) : StopsAt bytes p e

variable {bytes : List UInt8}

theorem StopsAt.le {p e : ℕ} (h : StopsAt bytes p e) : p ≤ e := by
  induction h with
  | here hget hstop => exact Nat.le_refl _
  | label hget hpos hlt h ih => omega

theorem StopsAt.lt_length {p e : ℕ} (h : StopsAt bytes p e) : e < bytes.length := by
  induction h with
  | here hget hstop => exact (List.getElem?_eq_some_iff.mp hget).1
  | label hget hpos hlt h ih => exact ih

theorem StopsAt.unique {p e e' : ℕ} (h : StopsAt bytes p e) (h' : StopsAt bytes p e') :
    e = e' := by
  induction h with
  | @here p b hget hstop =>
      cases h' with
      | here => rfl
      | @label _ _ b' hget' hpos hlt h' =>
          obtain rfl : b = b' := Option.some.inj (hget.symm.trans hget')
          rcases hstop with rfl | hstop
          · exact absurd hpos (Nat.lt_irrefl 0)
          · omega
  | @label p e b hget hpos hlt h ih =>
      cases h' with
      | @here _ b' hget' hstop =>
          obtain rfl : b = b' := Option.some.inj (hget.symm.trans hget')
          rcases hstop with rfl | hstop
          · exact absurd hpos (Nat.lt_irrefl 0)
          · omega
      | @label _ _ b' hget' hpos' hlt' h' =>
          obtain rfl : b = b' := Option.some.inj (hget.symm.trans hget')
          exact ih h'

/-- A chain which stops at a zero byte is a name. -/
theorem StopsAt.isName {p e : ℕ} (h : StopsAt bytes p e) (hzero : bytes[e]? = some 0) :
    IsName ((bytes.drop p).take (e + 1 - p)) := by
  induction h with
  | @here p b hget hstop =>
      obtain ⟨hlt, hval⟩ := List.getElem?_eq_some_iff.mp hzero
      have hdrop : bytes.drop p = 0 :: bytes.drop (p + 1) := by
        rw [List.drop_eq_getElem_cons hlt, hval]
      have hlen : p + 1 - p = 1 := by omega
      rw [hdrop, hlen, List.take_succ_cons, List.take_zero]
      exact IsName.root
  | @label p e b hget hpos hlt h ih =>
      obtain ⟨hp, hval⟩ := List.getElem?_eq_some_iff.mp hget
      have hle := h.le
      have hin := h.lt_length
      have hdrop : bytes.drop p = b :: bytes.drop (p + 1) := by
        rw [List.drop_eq_getElem_cons hp, hval]
      have hlen : e + 1 - p = (b.toNat + (e + 1 - (p + 1 + b.toNat))) + 1 := by omega
      rw [hdrop, hlen, List.take_succ_cons, List.take_add, List.drop_drop]
      refine IsName.label b _ _ hpos hlt ?_ (ih hzero)
      rw [List.length_take, List.length_drop]
      omega

/-- Where the chain behind a name stops, the name ends. -/
theorem IsName.length_of_stopsAt {name : List UInt8} (h : IsName name) {p e : ℕ}
    (hpre : name <+: bytes.drop p) (hstops : StopsAt bytes p e) :
    (bytes[e]? = some 0 ∧ p + name.length = e + 1) ∨
      (∃ b, bytes[e]? = some b ∧ 64 ≤ b.toNat ∧ p + name.length = e + 2) := by
  have hfirst : ∀ {q : ℕ} {b : UInt8} {rest : List UInt8}, b :: rest <+: bytes.drop q →
      bytes[q]? = some b := by
    rintro q b rest ⟨suffix, hsuffix⟩
    have hget : (bytes.drop q)[0]? = some b := by rw [← hsuffix]; rfl
    rwa [List.getElem?_drop, Nat.add_zero] at hget
  induction h generalizing p with
  | root =>
      have hget := hfirst hpre
      have hp : StopsAt bytes p p := StopsAt.here hget (Or.inl rfl)
      obtain rfl := hp.unique hstops
      exact Or.inl ⟨hget, rfl⟩
  | pointer hi lo hhi =>
      have hget := hfirst hpre
      have hp : StopsAt bytes p p := StopsAt.here hget (Or.inr (by omega))
      obtain rfl := hp.unique hstops
      exact Or.inr ⟨hi, hget, by omega, rfl⟩
  | label b text rest hpos hlt hlen h ih =>
      have hget := hfirst hpre
      have hrest : rest <+: bytes.drop (p + 1 + b.toNat) := by
        obtain ⟨suffix, hsuffix⟩ := hpre
        refine ⟨suffix, ?_⟩
        have hdrop : bytes.drop (p + 1 + b.toNat) = (bytes.drop p).drop (b.toNat + 1) := by
          rw [List.drop_drop]
          congr 1
          omega
        rw [hdrop, ← hsuffix, List.cons_append, List.drop_succ_cons, List.append_assoc,
          ← hlen, List.drop_left]
      have hlength : (b :: (text ++ rest)).length = 1 + b.toNat + rest.length := by
        rw [List.length_cons, List.length_append, hlen]
        omega
      cases hstops with
      | @here _ b' hget' hstop =>
          obtain rfl : b = b' := Option.some.inj (hget.symm.trans hget')
          rcases hstop with rfl | hstop
          · exact absurd hpos (Nat.lt_irrefl 0)
          · omega
      | @label _ _ b' hget' hpos' hlt' hstops' =>
          obtain rfl : b = b' := Option.some.inj (hget.symm.trans hget')
          rcases ih hrest hstops' with ⟨hzero, hend⟩ | ⟨b', hb', hge, hend⟩
          · exact Or.inl ⟨hzero, by omega⟩
          · exact Or.inr ⟨b', hb', hge, by omega⟩

end Dns
