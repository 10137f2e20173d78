import BtClock.Nostr.EventSign
import BtClock.Reading.Chunks
import BtClock.Staging.Device

/-!
# Push update of the firmware

`WritePushImage` streams an image from the uploading client into the next partition, checks its
digest and makes the partition the one to boot.  What the call received, what the flash functions
gave and what was emitted is recorded with the state.
-/

namespace BtClock

namespace Ota

open Reading Nostr

abbrev EspErr := ℤ

abbrev espOk : EspErr := 0

abbrev espFail : EspErr := -1

abbrev espErrNoMem : EspErr := 0x101

abbrev espErrInvalidArg : EspErr := 0x102

abbrev espErrInvalidState : EspErr := 0x103

abbrev espErrInvalidSize : EspErr := 0x104

abbrev espErrNotFound : EspErr := 0x105

abbrev espErrInvalidCrc : EspErr := 0x109

structure Partition where
  address : ℕ
  size : ℕ
  deriving DecidableEq, Repr

/-- The platform: `start`, `append`, `finish`, `drop` and `select` are `esp_ota_begin`,
`esp_ota_write`, `esp_ota_end`, `esp_ota_abort` and `esp_ota_set_boot_partition`. -/
structure EspOta (φ : Type*) extends Staging.Device φ Partition ℕ UInt8 where
  nextUpdatePartition : φ → Option Partition

inductive Phase
  | starting
  | writing
  | verifying
  | rebooting
  | failed
  deriving DecidableEq, Repr

structure OtaProgress where
  written : ℕ
  total : ℕ
  phase : Phase
  deriving DecidableEq, Repr

structure PushFailure where
  rc : EspErr
  written : ℕ
  deriving DecidableEq, Repr

structure OtaManager (φ : Type*) where
  isUpdating : Bool
  flash : φ

/-- The allocations of a push which can fail. -/
structure Heap where
  md : Bool
  buf : Bool
  deriving DecidableEq, Repr

/-- `esp_err_t` and the bytes of the errors of `recv`. -/
abbrev Reads := List (Read UInt8 ℤ)

structure Push (φ : Type*) extends OtaManager φ where
  reads : Reads
  md : Sha256Ctx
  emitted : List OtaProgress
  received : List UInt8
  codes : List EspErr

def kChunk : ℕ := 4096

def kProgressStepBytes : ℕ := 16 * 1024

variable {φ : Type*}

namespace Push

def emit (s : Push φ) (p : OtaProgress) : Push φ :=
  { s with emitted := s.emitted ++ [p] }

/-- What a flash function gave. -/
def flashed (s : Push φ) (rc : EspErr) (flash : φ) : Push φ :=
  { s with flash := flash, codes := s.codes ++ [rc] }

/-- A piece of the image, hashed before it is written. -/
def take (s : Push φ) (bytes : List UInt8) (reads : Reads) : Push φ :=
  { s with
    reads := reads
    received := s.received ++ bytes
    md := sha256Update s.md bytes }

end Push

variable (api : EspOta φ)

/-- The loop of `WritePushImageImpl`. -/
def writeLoop (handle cap expectedBytes : ℕ) (s : Push φ) (written nextProgress : ℕ) :
    Except PushFailure ℕ × Push φ :=
  if _hcap : written < cap then
    match recv (min kChunk (cap - written)) s.reads with
    | (.failed _, reads) => (.error ⟨espFail, written⟩, { s with reads := reads })
    | (.got [], reads) =>
        if expectedBytes = 0 then (.ok written, { s with reads := reads })
        else (.error ⟨espFail, written⟩, { s with reads := reads })
    | (.got (b :: bs), reads) =>
        let s := s.take (b :: bs) reads
        match api.append handle (b :: bs) s.flash with
        | (rc, flash) =>
            let s := s.flashed rc flash
            if rc ≠ espOk then (.error ⟨rc, written⟩, s)
            else
              let written' := written + (b :: bs).length
              if nextProgress ≤ written' ∨ written' = cap then
                writeLoop handle cap expectedBytes (s.emit ⟨written', expectedBytes, .writing⟩)
                  written' (written' + kProgressStepBytes)
              else writeLoop handle cap expectedBytes s written' nextProgress
  else (.ok written, s)
termination_by cap - written
decreasing_by all_goals simp only [List.length_cons]; omega

/-- Lower case of the hexadecimal digits. -/
def lowerHexDigit (c : Char) : Char :=
  if 'A' ≤ c ∧ c ≤ 'F' then Char.ofNat (c.toNat + 32) else c

/-- No digest was given, or the given one is the digest. -/
def digestAccepted (expectedSha256Hex : Option (List Char)) (digest : List UInt8) : Bool :=
  match expectedSha256Hex with
  | none | some [] => true
  | some hex =>
      let expectedLc := hex.map lowerHexDigit
      decide (expectedLc.length = 64) && decide (expectedLc = (hexLowercase digest).toList)

/-- The end of `WritePushImageImpl`, and whether the handle was released by its guard. -/
def activate (part : Partition) (handle written : ℕ) (s : Push φ) :
    (Except PushFailure ℕ × Bool) × Push φ :=
  match api.finish handle s.flash with
  | (rc, flash) =>
      let s := s.flashed rc flash
      if rc ≠ espOk then ((.error ⟨rc, written⟩, false), s)
      else
        match api.select part s.flash with
        | (rc, flash) =>
            let s := s.flashed rc flash
            if rc ≠ espOk then ((.error ⟨rc, written⟩, true), s)
            else ((.ok written, true), s)

/-- `WritePushImageImpl` behind the loop. -/
def verify (part : Partition) (handle expectedBytes : ℕ) (expectedSha256Hex : Option (List Char))
    (written : ℕ) (s : Push φ) : (Except PushFailure ℕ × Bool) × Push φ :=
  if 0 < expectedBytes ∧ written ≠ expectedBytes then
    ((.error ⟨espErrInvalidSize, written⟩, false), s)
  else
    let s := s.emit ⟨written, expectedBytes, .verifying⟩
    if digestAccepted expectedSha256Hex (sha256Final s.md) then
      activate api part handle written s
    else ((.error ⟨espErrInvalidCrc, written⟩, false), s)

/-- `WritePushImageImpl` with an open handle. -/
def stream (heap : Heap) (part : Partition) (handle expectedBytes : ℕ)
    (expectedSha256Hex : Option (List Char)) (s : Push φ) :
    (Except PushFailure ℕ × Bool) × Push φ :=
  if !heap.md || !heap.buf then ((.error ⟨espErrNoMem, 0⟩, false), s)
  else
    let cap := if 0 < expectedBytes then expectedBytes else part.size
    let s := { s with md := sha256Init }.emit ⟨0, expectedBytes, .writing⟩
    match writeLoop api handle cap expectedBytes s 0 kProgressStepBytes with
    | (.error e, s) => ((.error e, false), s)
    | (.ok written, s) => verify api part handle expectedBytes expectedSha256Hex written s

/-- `OtaHandleGuard`: a handle which was not released is aborted. -/
def otaHandleGuard {α : Type*} (handle : ℕ) : (α × Bool) × Push φ → α × Push φ
  | ((r, true), s) => (r, s)
  | ((r, false), s) => (r, { s with flash := api.drop handle s.flash })

def writePushImageImpl (heap : Heap) (expectedBytes : ℕ) (expectedSha256Hex : Option (List Char))
    (s : Push φ) : Except PushFailure ℕ × Push φ :=
  match api.nextUpdatePartition s.flash with
  | none => (.error ⟨espErrNotFound, 0⟩, s)
  | some part =>
      if part.size < expectedBytes then (.error ⟨espErrInvalidSize, 0⟩, s)
      else
        match api.start part s.flash with
        | (rc, handle, flash) =>
            let s := s.flashed rc flash
            if rc ≠ espOk then (.error ⟨rc, 0⟩, s)
            else
              otaHandleGuard api handle
                (stream api heap part handle expectedBytes expectedSha256Hex s)

/-- What the caller of `WritePushImage` gets, and the state behind the call. -/
structure Outcome (φ : Type*) where
  rc : EspErr
  outWritten : ℕ
  state : Push φ

/-- The flag is taken before anything is emitted, and given back on every exit.  The hook before
the flash stops the data sources, which are not part of this state. -/
def writePushImage (heap : Heap) (recvFn : Option Reads) (expectedBytes : ℕ)
    (expectedSha256Hex : Option (List Char)) (m : OtaManager φ) : Outcome φ :=
  let s : Push φ :=
    { m with reads := recvFn.getD [], md := sha256Init, emitted := [], received := [], codes := [] }
  if recvFn = none then ⟨espErrInvalidArg, 0, s⟩
  else if s.isUpdating then ⟨espErrInvalidState, 0, s⟩
  else
    let s := { s with isUpdating := true }.emit ⟨0, expectedBytes, .starting⟩
    match writePushImageImpl api heap expectedBytes expectedSha256Hex s with
    | (.error f, s) =>
        ⟨f.rc, 0, { s.emit ⟨f.written, expectedBytes, .failed⟩ with isUpdating := false }⟩
    | (.ok n, s) =>
        ⟨espOk, n, { s.emit ⟨n, expectedBytes, .rebooting⟩ with isUpdating := false }⟩

end Ota

end BtClock
