import BtClock.Coding.SelfDelimiting
import BtClock.Nostr.RelayFrame

/-!
# The pre-image of the event id

The canonical serialization writes five fields one after the other.  Each of them is
self-delimiting in its place, so the serialization determines them.
-/

namespace BtClock

namespace Nostr

open JsonEmit JsonWalker

theorem selfDelimiting_appendString : SelfDelimiting appendString :=
  SelfDelimiting.of_read parseString_appendString

theorem selfDelimiting_tagsText : SelfDelimiting tagsText :=
  SelfDelimiting.of_read parseTags_tagsText

/-- Reads digits, and skips the character behind them. -/
def readUint (s : List Char) : Option (ℕ × List Char) :=
  some (digitsValue (s.takeWhile isDigit), (s.dropWhile isDigit).tail)

/-- A number ends at the comma behind it. -/
theorem selfDelimiting_appendUint : SelfDelimiting fun n => appendUint n ++ [','] := by
  refine SelfDelimiting.of_read fun n rest => (?_ : readUint _ = _)
  have hall : ∀ d ∈ appendUint n, isDigit d = true := fun d => isDigit_of_mem_appendUint
  have hcomma : isDigit ',' = false := rfl
  rw [readUint, List.append_assoc, List.takeWhile_append_of_pos hall,
    List.dropWhile_append_of_pos hall]
  simp [hcomma, digitsValue_appendUint]

/-- The fields of the event which its id covers. -/
abbrev Covered : Type :=
  String × ℕ × ℕ × List Tag × String

def covered (ev : Event) : Covered :=
  (ev.pubkey, ev.createdAt.toNat, ev.kind.toNat, ev.tags, ev.content)

/-- The code of the covered fields. -/
def coveredText (f : Covered) : List Char :=
  "[0,".toList ++ ((appendString f.1 ++ ([','] ++ ((appendUint f.2.1 ++ [',']) ++ ([] ++
    ((appendUint f.2.2.1 ++ [',']) ++ ([] ++
      (tagsText f.2.2.2.1 ++ ([','] ++ appendString f.2.2.2.2)))))))) ++ [']'])

theorem serializeCanonical_eq_coveredText (ev : Event) :
    serializeCanonical ev = coveredText (covered ev) := by
  have htag : (fun t : Tag => ['['] ++ joinComma (t.values.map appendString) ++ [']']) =
      tagText := by
    funext t
    simp [tagText]
  unfold serializeCanonical
  rw [htag]
  simp only [coveredText, covered, tagsText, List.append_assoc, List.nil_append,
    List.cons_append]

theorem selfDelimiting_coveredText : SelfDelimiting coveredText :=
  (selfDelimiting_appendString.pair
    (selfDelimiting_appendUint.pair
      (selfDelimiting_appendUint.pair
        (selfDelimiting_tagsText.pair selfDelimiting_appendString [',']) []) []) [',']).enclose
    "[0,".toList [']']

/-- Two events have one serialization exactly when they agree on the five fields. -/
theorem serializeCanonical_eq_iff (ev ev' : Event) :
    serializeCanonical ev = serializeCanonical ev' ↔
      ev.pubkey = ev'.pubkey ∧ ev.createdAt = ev'.createdAt ∧ ev.kind = ev'.kind ∧
        ev.tags = ev'.tags ∧ ev.content = ev'.content := by
  rw [serializeCanonical_eq_coveredText, serializeCanonical_eq_coveredText,
    selfDelimiting_coveredText.injective.eq_iff]
  simp only [covered, Prod.mk.injEq, UInt64.toNat_inj, UInt32.toNat_inj]

end Nostr

end BtClock
