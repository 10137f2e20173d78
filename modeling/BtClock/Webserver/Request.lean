import BtClock.Reading.Chunks
import BtClock.Webserver.AuthGate

/-!
# What the handlers read of a request

The parameters of the query have limits of their own, and a parameter beyond them counts as
missing.  The body can be read once.
-/

namespace BtClock

namespace Webserver

open Nostr (hexDigit)
open Reading Settings

/-- The bytes of the body, and the codes of the reads which fail. -/
abbrev BodyReads := List (Read UInt8 ℤ)

/-- A character of the query stands for a byte. -/
structure HttpRequest where
  authorization : List Char := []
  query : List Char := []
  contentLen : ℕ
  body : BodyReads

structure Reply where
  status : String := "200 OK"
  contentType : String := "application/json"
  body : String
  deriving DecidableEq, Repr

def sendUnauthorized : Reply where
  status := "401 Unauthorized"
  body := "\x7b\"error\":\"unauthorized\"\x7d"

def kOtaEnabled : String := "otaEnabled"

def requireOtaEnabled (prefs : Prefs) : Bool :=
  prefs.getBool kOtaEnabled true

def sendOtaDisabled : Reply where
  status := "403 Forbidden"
  body := "\x7b\"error\":\"ota_disabled\"\x7d"

/-- `httpd_resp_send_err` with `HTTPD_500_INTERNAL_SERVER_ERROR`. -/
def sendInternalError (msg : String) : Reply where
  status := "500 Internal Server Error"
  contentType := "text/html"
  body := msg

def sendOversize (max : ℕ) : Reply where
  status := "413 Payload Too Large"
  body := "\x7b\"error\":\"oversize\",\"max\":" ++ toString max ++ "\x7d"

def sendResultOk (written : ℕ) : Reply where
  body := "\x7b\"result\":\"ok\",\"bytes\":" ++ toString written ++ "\x7d"

/-- The bounds of an upload. -/
def isValidUploadSize (declared partitionSize : ℕ) : Bool :=
  if declared = 0 then false
  else if partitionSize = 0 then false
  else decide (declared ≤ partitionSize)

theorem isValidUploadSize_iff (declared partitionSize : ℕ) :
    isValidUploadSize declared partitionSize = true ↔
      0 < declared ∧ declared ≤ partitionSize := by
  unfold isValidUploadSize
  split_ifs <;> simp <;> omega

/-! ### The query -/

/-- Decodes a value, unless an escape is malformed. -/
def urlDecodeInPlace : List Char → Option (List Char)
  | [] => some []
  | c :: rest =>
      if c = '+' then (urlDecodeInPlace rest).map (' ' :: ·)
      else if c = '%' then
        match rest with
        | a :: b :: rest =>
            match hexDigit a, hexDigit b with
            | some hi, some lo => (urlDecodeInPlace rest).map (Char.ofNat (16 * hi + lo) :: ·)
            | _, _ => none
        | _ => none
      else (urlDecodeInPlace rest).map (c :: ·)

/-- What is read of a buffer. -/
def cString (buf : List Char) : List Char :=
  buf.takeWhile (· ≠ '\x00')

/-- `httpd_query_key_value` with a buffer which is large enough: the text which stands in a query
under a key. -/
abbrev QueryKeyValue := List Char → String → Option (List Char)

def kQueryBuffer : ℕ := 256

/-- The value of a parameter, which is missing as well when the query or the value is too long
for its buffer. -/
def queryParam (keyValue : QueryKeyValue) (query : List Char) (key : String) (outSize : ℕ) :
    Option (List Char) :=
  if query.length = 0 ∨ kQueryBuffer ≤ query.length then none
  else
    match keyValue query key with
    | none => none
    | some raw => if outSize ≤ raw.length then none else (urlDecodeInPlace raw).map cString

/-! ### The body -/

def kHttpdRecvTimeoutRetries : ℕ := 6

def httpdSockErrTimeout : ℤ := -3

/-- A read which is tried again up to `retries` times when it times out. -/
def httpdRecvTrampoline (want : ℕ) : ℕ → BodyReads → Read UInt8 ℤ × BodyReads
  | 0, reads => recv want reads
  | retries + 1, reads =>
      match recv want reads with
      | (.got items, reads) => (.got items, reads)
      | (.failed r, reads) =>
          if r ≠ httpdSockErrTimeout then (.failed r, reads)
          else httpdRecvTrampoline want retries reads

/-- What the reads give when those which time out are tried again. -/
def retried : ℕ → BodyReads → BodyReads
  | _, [] => []
  | _, .got items :: reads => .got items :: retried kHttpdRecvTimeoutRetries reads
  | 0, .failed r :: reads => .failed r :: retried kHttpdRecvTimeoutRetries reads
  | retries + 1, .failed r :: reads =>
      if r ≠ httpdSockErrTimeout then .failed r :: retried kHttpdRecvTimeoutRetries reads
      else retried retries reads

theorem retried_putBack (items : List UInt8) (reads : BodyReads) :
    retried kHttpdRecvTimeoutRetries (putBack items reads) =
      putBack items (retried kHttpdRecvTimeoutRetries reads) := by
  unfold putBack
  split_ifs with h
  · rfl
  · rfl

/-- A read with retries is a read of what the retries give. -/
theorem recv_retried (want retries : ℕ) (reads : BodyReads) :
    recv want (retried retries reads) =
      ((httpdRecvTrampoline want retries reads).1,
        retried kHttpdRecvTimeoutRetries (httpdRecvTrampoline want retries reads).2) := by
  induction reads generalizing retries with
  | nil => cases retries <;> simp [retried, httpdRecvTrampoline, recv]
  | cons r reads ih =>
      cases r with
      | got items => cases retries <;> simp [retried, httpdRecvTrampoline, recv, retried_putBack]
      | failed r =>
          cases retries with
          | zero => rfl
          | succ retries =>
              simp only [retried, httpdRecvTrampoline, recv]
              split_ifs with h
              · rfl
              · exact ih retries

/-- No byte is lost by the retries. -/
theorem pending_retried (retries : ℕ) (reads : BodyReads) :
    pending (retried retries reads) = pending reads := by
  induction reads generalizing retries with
  | nil => cases retries <;> rfl
  | cons r reads ih =>
      cases r with
      | got items => cases retries <;> simp [retried, ih]
      | failed r =>
          cases retries with
          | zero => simp [retried, ih]
          | succ retries =>
              simp only [retried]
              split_ifs with h
              · simp [ih]
              · simpa using ih retries

end Webserver

end BtClock
