import BtClock.Ota.PushDigest
import BtClock.Webserver.Request

/-!
# Upload of a firmware image

The digest of the image may be given with the query.  A query which is not read counts as one
without a digest.
-/

namespace BtClock

namespace Webserver

open Reading Settings Auth Nostr
open Ota (EspErr EspOta Heap OtaManager Partition espOk espErrInvalidState espErrInvalidCrc
  writePushImage DigestMatches)

def isValidFirmwareUploadSize (declared partitionSize : ℕ) : Bool :=
  isValidUploadSize declared partitionSize

/-- `char sha_buf[80]`. -/
def kShaBuffer : ℕ := 80

variable {φ : Type*} (api : EspOta φ) (errToName : EspErr → String) (keyValue : QueryKeyValue)

/-- The digest which is checked. -/
def uploadDigest (req : HttpRequest) : Option (List Char) :=
  queryParam keyValue req.query "sha256" kShaBuffer

variable {api errToName keyValue} {heap : Heap} {prefs : Prefs} {req : HttpRequest}
  {m : OtaManager φ}

/-- The checks before the image is written do not look at the query. -/
def Writes (api : EspOta φ) (prefs : Prefs) (req : HttpRequest) (m : OtaManager φ) : Prop :=
  requireHttpAuth prefs req.authorization = true ∧ requireOtaEnabled prefs = true ∧
    ∃ next, api.nextUpdatePartition m.flash = some next ∧
      isValidFirmwareUploadSize req.contentLen next.size = true

end Webserver

end BtClock
