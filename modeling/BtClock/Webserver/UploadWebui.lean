import BtClock.Ota.PushImage
import BtClock.Webserver.Request

/-!
# Upload of the web interface

The image is streamed over the storage partition, which is erased first.  The answer is that of
the handler, and what was received and whether the partition was erased is kept with the state.
-/

namespace BtClock

namespace Webserver

open Reading Settings Auth
open Ota (EspErr espOk espFail espErrInvalidArg espErrInvalidSize espErrNotFound)

/-- The platform: `unregister`, `eraseRange` and `write` are `esp_vfs_littlefs_unregister`,
`esp_partition_erase_range` and `esp_partition_write`. -/
structure Storage (φ : Type*) where
  partitionSize : Option ℕ
  unregister : φ → EspErr × φ
  eraseRange : ℕ → ℕ → φ → EspErr × φ
  write : ℕ → List UInt8 → φ → EspErr × φ
  errToName : EspErr → String
  contents : φ → List UInt8

def erasedByte : UInt8 := 0xFF

/-- What is written into an erased part of the partition is there. -/
structure Storage.Lawful {φ : Type*} (api : Storage φ) : Prop where
  erase_ok : ∀ {size f f'}, api.partitionSize = some size →
    api.eraseRange 0 size f = (espOk, f') → api.contents f' = List.replicate size erasedByte
  write_ok : ∀ {front bytes f f'} {k : ℕ}, api.write front.length bytes f = (espOk, f') →
    api.contents f = front ++ List.replicate k erasedByte → bytes.length ≤ k →
      api.contents f' = front ++ bytes ++ List.replicate (k - bytes.length) erasedByte

structure Upload (φ : Type*) where
  mounted : Bool
  flash : φ
  reads : BodyReads
  erased : Bool := false
  received : List UInt8 := []

def kChunk : ℕ := 4096

def isValidWebuiUploadSize (declared partitionSize : ℕ) : Bool :=
  isValidUploadSize declared partitionSize

variable {φ : Type*} (api : Storage φ)

def getLittleFsPartitionSize : ℕ :=
  api.partitionSize.getD 0

def unmountLittleFs (s : Upload φ) : EspErr × Upload φ :=
  if s.mounted = false then (espOk, s)
  else
    match api.unregister s.flash with
    | (err, flash) =>
        if err ≠ espOk then (err, { s with flash := flash })
        else (espOk, { s with flash := flash, mounted := false })

/-- The loop of `FlashWebuiImage`. -/
def flashLoop (cap offset : ℕ) (s : Upload φ) : Except EspErr ℕ × Upload φ :=
  if _hcap : offset < cap then
    match recv (min kChunk (cap - offset)) s.reads with
    | (.failed _, reads) => (.error espFail, { s with reads := reads })
    | (.got [], reads) => (.ok offset, { s with reads := reads })
    | (.got (b :: bs), reads) =>
        let s := { s with reads := reads, received := s.received ++ b :: bs }
        match api.write offset (b :: bs) s.flash with
        | (wr, flash) =>
            let s := { s with flash := flash }
            if wr ≠ espOk then (.error wr, s)
            else flashLoop cap (offset + (b :: bs).length) s
  else (.ok offset, s)
termination_by cap - offset
decreasing_by simp only [List.length_cons]; omega

/-- The result is the code and the number of bytes which were written. -/
def flashWebuiImage (expectedLen : ℕ) (s : Upload φ) : (EspErr × ℕ) × Upload φ :=
  match api.partitionSize with
  | none => ((espErrNotFound, 0), s)
  | some size =>
      if size < expectedLen then ((espErrInvalidSize, 0), s)
      else
        match unmountLittleFs api s with
        | (umountErr, s) =>
            if umountErr ≠ espOk then ((umountErr, 0), s)
            else
              match api.eraseRange 0 size s.flash with
              | (eraseErr, flash) =>
                  let s := { s with flash := flash, erased := true }
                  if eraseErr ≠ espOk then ((eraseErr, 0), s)
                  else
                    let cap := if 0 < expectedLen then expectedLen else size
                    match flashLoop api cap 0 s with
                    | (.error err, s) => ((err, 0), s)
                    | (.ok offset, s) =>
                        if 0 < expectedLen ∧ offset ≠ expectedLen then
                          ((espErrInvalidSize, offset), s)
                        else ((espOk, offset), s)

/-! ### The handler -/

structure UploadOutcome (φ : Type*) extends Upload φ where
  reply : Reply
  rebootMs : Option ℕ := none

def handleUploadWebui (prefs : Prefs) (req : HttpRequest) (mounted : Bool) (flash : φ) :
    UploadOutcome φ :=
  let s : Upload φ :=
    { mounted, flash, reads := retried kHttpdRecvTimeoutRetries req.body }
  if requireHttpAuth prefs req.authorization = false then
    { s with reply := sendUnauthorized }
  else if requireOtaEnabled prefs = false then
    { s with reply := sendOtaDisabled }
  else
    let partSize := getLittleFsPartitionSize api
    if partSize = 0 then { s with reply := sendInternalError "storage partition not found" }
    else
      let expected := req.contentLen
      if partSize < expected then { s with reply := sendOversize partSize }
      else
        match flashWebuiImage api expected s with
        | ((rc, written), s) =>
            if rc = espErrInvalidSize then
              { s with reply := sendInternalError "truncated upload" }
            else if rc ≠ espOk then
              { s with reply := sendInternalError (api.errToName rc) }
            else { s with reply := sendResultOk written, rebootMs := some 500 }

/-! ### What an upload installs -/

/-- What was received is the front of the partition, and behind it the partition is erased. -/
structure Streamed (body : List UInt8) (size offset : ℕ) (s : Upload φ) : Prop where
  contents : api.contents s.flash =
    s.received ++ List.replicate (size - s.received.length) erasedByte
  length : s.received.length = offset
  pending : s.received ++ pending s.reads = body
  erased : s.erased = true

variable {api} {body : List UInt8} {size cap offset : ℕ} {s : Upload φ}

theorem Streamed.write (hapi : api.Lawful) (h : Streamed api body size offset s)
    {bytes : List UInt8} {reads : BodyReads} {flash : φ}
    (hreads : bytes ++ Reading.pending reads = Reading.pending s.reads)
    (hsize : offset + bytes.length ≤ size)
    (hwrite : api.write offset bytes s.flash = (espOk, flash)) :
    Streamed api body size (offset + bytes.length)
      { s with reads := reads, received := s.received ++ bytes, flash := flash } where
  contents := by
    have hlen := h.length
    rw [← hlen] at hwrite
    have hwritten := hapi.write_ok hwrite h.contents (by omega)
    rw [List.length_append, ← Nat.sub_sub]
    exact hwritten
  length := by
    rw [List.length_append, h.length]
  pending := by
    change s.received ++ bytes ++ Reading.pending reads = body
    rw [List.append_assoc, hreads, h.pending]
  erased := h.erased

variable (api) in
/-- Whatever the loop gives, the partition was erased before it. -/
theorem flashLoop_erased (h : s.erased = true) (cap offset : ℕ) :
    (flashLoop api cap offset s).2.erased = true := by
  fun_induction flashLoop api cap offset s with
  | case4 offset s hcap b bs reads hrecv s' wr flash hwrite s'' hok ih => exact ih h
  | _ => exact h

theorem flashLoop_ok (hapi : api.Lawful) (hcap : cap ≤ size) (hoffset : offset ≤ cap)
    (h : Streamed api body size offset s) {n : ℕ} {t : Upload φ}
    (hloop : flashLoop api cap offset s = (.ok n, t)) : Streamed api body size n t := by
  fun_induction flashLoop api cap offset s with
  | case1 => cases hloop
  | case2 offset s hlt reads hrecv =>
      have hreads := items_append_pending_recv (min kChunk (cap - offset)) s.reads
      rw [hrecv] at hreads
      cases hloop
      exact ⟨h.contents, h.length, by rw [← h.pending, ← hreads]; rfl, h.erased⟩
  | case3 => cases hloop
  | case4 offset s hlt b bs reads hrecv s' wr flash hwrite s'' hok ih =>
      have hreads := items_append_pending_recv (min kChunk (cap - offset)) s.reads
      have hwant := Nat.le_trans (length_recv_le hrecv) (Nat.min_le_right _ _)
      rw [hrecv] at hreads
      rw [not_not.mp hok] at hwrite
      exact ih (by omega) (h.write hapi hreads (by omega) hwrite) hloop
  | case5 offset s hend =>
      cases hloop
      exact h

/-- The loop fails with an error. -/
theorem flashLoop_error {err : EspErr} {t : Upload φ}
    (hloop : flashLoop api cap offset s = (.error err, t)) : err ≠ espOk := by
  fun_induction flashLoop api cap offset s with
  | case1 =>
      cases hloop
      decide
  | case3 offset s hlt b bs reads hrecv s' wr flash hwrite s'' hfailed =>
      obtain rfl := Except.error.inj (congrArg Prod.fst hloop)
      exact hfailed
  | case4 offset s hlt b bs reads hrecv s' wr flash hwrite s'' hok ih => exact ih hloop
  | _ => cases hloop

variable (api) in
/-- An unmount leaves the upload as it is. -/
theorem unmountLittleFs_same (s : Upload φ) :
    (unmountLittleFs api s).2.reads = s.reads ∧
      (unmountLittleFs api s).2.received = s.received ∧
      (unmountLittleFs api s).2.erased = s.erased := by
  unfold unmountLittleFs
  dsimp only
  split_ifs <;> exact ⟨rfl, rfl, rfl⟩

variable (api) in
/-- The partition is erased once the length fits and the file system is unmounted. -/
theorem flashWebuiImage_erased_iff (hs : s.erased = false) (expectedLen : ℕ) :
    (flashWebuiImage api expectedLen s).2.erased = true ↔
      ∃ size, api.partitionSize = some size ∧ expectedLen ≤ size ∧
        (unmountLittleFs api s).1 = espOk := by
  obtain ⟨-, -, hsame⟩ := unmountLittleFs_same api s
  rw [flashWebuiImage]
  cases hpart : api.partitionSize with
  | none => simp [hs]
  | some size =>
      simp only [Option.some.injEq, exists_eq_left']
      by_cases hsize : size < expectedLen
      · rw [if_pos hsize]
        simp [hs, Nat.not_le.mpr hsize]
      rw [if_neg hsize]
      rcases hunmount : unmountLittleFs api s with ⟨err, t⟩
      rw [hunmount] at hsame
      dsimp only at hsame ⊢
      by_cases herr : err = espOk
      · rw [if_neg (not_not.mpr herr)]
        refine iff_of_true ?_ ⟨Nat.not_lt.mp hsize, herr⟩
        by_cases herase : (api.eraseRange 0 size t.flash).1 = espOk
        · rw [if_neg (not_not.mpr herase)]
          have hloop := flashLoop_erased api
            (s := { t with flash := (api.eraseRange 0 size t.flash).2, erased := true }) rfl
            (if 0 < expectedLen then expectedLen else size) 0
          revert hloop
          generalize flashLoop api _ 0 _ = out
          intro hloop
          match out with
          | (.error e, u) => exact hloop
          | (.ok n, u) =>
              dsimp only
              split_ifs <;> exact hloop
        · rw [if_pos herase]
      · rw [if_pos herr]
        simp [hsame, hs, herr]

/-- The partition was erased, and a declared length is received and written in full. -/
theorem flashWebuiImage_ok (hapi : api.Lawful) (hs : s.received = []) {expectedLen written : ℕ}
    {t : Upload φ} (hflash : flashWebuiImage api expectedLen s = ((espOk, written), t)) :
    (unmountLittleFs api s).1 = espOk ∧
      ∃ size n, Streamed api (pending s.reads) size n t ∧ (0 < expectedLen → n = expectedLen) := by
  obtain ⟨hreads, hreceived, -⟩ := unmountLittleFs_same api s
  rw [flashWebuiImage] at hflash
  cases hpart : api.partitionSize with
  | none => simp [hpart] at hflash
  | some size =>
      rcases hunmount : unmountLittleFs api s with ⟨err, u⟩
      rw [hunmount] at hreads hreceived
      simp only [hpart, hunmount] at hflash
      generalize hcap : (if 0 < expectedLen then expectedLen else size) = cap at hflash
      split_ifs at hflash with hsize herr herase
      · simp at hflash
      · simp at hflash
        exact absurd hflash.1.1 herr
      · simp at hflash
        exact absurd hflash.1.1 herase
      · refine ⟨not_not.mp herr, ?_⟩
        have hstart : Streamed api (pending s.reads) size 0
            { u with flash := (api.eraseRange 0 size u.flash).2, erased := true } := by
          have hcontents := hapi.erase_ok hpart
            (Prod.ext (not_not.mp herase) rfl : api.eraseRange 0 size u.flash = (espOk, _))
          change u.reads = s.reads at hreads
          change u.received = s.received at hreceived
          refine ⟨?_, ?_, ?_, rfl⟩ <;> simp [hreceived, hs, hreads, hcontents]
        have hle : cap ≤ size := by
          rw [← hcap]
          split_ifs
          · exact Nat.not_lt.mp hsize
          · exact Nat.le_refl size
        rcases hloop : flashLoop api cap 0
            { u with flash := (api.eraseRange 0 size u.flash).2, erased := true } with
          ⟨_ | n, v⟩
        · simp [hloop] at hflash
          exact absurd hflash.1.1 (flashLoop_error hloop)
        · have hstreamed := flashLoop_ok hapi hle (Nat.zero_le _) hstart hloop
          simp only [hloop] at hflash
          split_ifs at hflash with hlen
          · simp at hflash
          · simp at hflash
            refine ⟨size, n, hflash.2 ▸ hstreamed, fun hexpected => ?_⟩
            exact not_not.mp fun hne => hlen ⟨hexpected, hne⟩

/-! ### The answer of the handler -/

/-- An image is installed in full where the answer is ok, and nothing is erased for a length which
is not valid. -/
structure InstallsWhole (api : Storage φ) (req : HttpRequest) (out : UploadOutcome φ) : Prop where
  whole : (∃ n, out.reply = sendResultOk n) →
    out.received ≠ [] ∧ out.received.length = req.contentLen ∧
      out.received = (pending req.body).take req.contentLen ∧
        out.received <+: api.contents out.flash
  erases : out.erased = true →
    isValidWebuiUploadSize req.contentLen (getLittleFsPartitionSize api) = true

/-- The request passes the gates without a length, and the storage can be unmounted. -/
structure EmptyUpload (api : Storage φ) (prefs : Prefs) (req : HttpRequest) (mounted : Bool)
    (flash : φ) : Prop where
  authorized : requireHttpAuth prefs req.authorization = true
  enabled : requireOtaEnabled prefs = true
  found : 0 < getLittleFsPartitionSize api
  empty : req.contentLen = 0
  unmounts : mounted = true → (api.unregister flash).1 = espOk

variable (api) in
theorem unmountLittleFs_iff (s : Upload φ) :
    (unmountLittleFs api s).1 = espOk ↔
      (s.mounted = true → (api.unregister s.flash).1 = espOk) := by
  unfold unmountLittleFs
  cases hmounted : s.mounted with
  | false => simp
  | true =>
      simp only [Bool.true_eq_false, if_false, forall_const]
      split_ifs with h
      · rfl
      · simp [not_not.mp h]

section Handler

variable {prefs : Prefs} {req : HttpRequest} {mounted : Bool} {flash : φ}

/-- The upload at the start of the routine. -/
def startUpload (req : HttpRequest) (mounted : Bool) (flash : φ) : Upload φ :=
  { mounted, flash, reads := retried kHttpdRecvTimeoutRetries req.body }

/-- What the handler checks before the routine is called. -/
def Admitted (api : Storage φ) (prefs : Prefs) (req : HttpRequest) : Prop :=
  requireHttpAuth prefs req.authorization = true ∧ requireOtaEnabled prefs = true ∧
    0 < getLittleFsPartitionSize api ∧ req.contentLen ≤ getLittleFsPartitionSize api

theorem sendInternalError_ne (msg : String) : (sendInternalError msg).status ≠ "200 OK" := by
  change "500 Internal Server Error" ≠ "200 OK"
  decide

/-- A request which is not admitted leaves the partition alone. -/
theorem handleUploadWebui_of_not_admitted (h : ¬ Admitted api prefs req) (mounted : Bool)
    (flash : φ) :
    (handleUploadWebui api prefs req mounted flash).erased = false ∧
      (handleUploadWebui api prefs req mounted flash).reply.status ≠ "200 OK" := by
  have hunauthorized : sendUnauthorized.status ≠ "200 OK" := by decide
  have hdisabled : sendOtaDisabled.status ≠ "200 OK" := by decide
  have hoversize (max : ℕ) : (sendOversize max).status ≠ "200 OK" := by
    change "413 Payload Too Large" ≠ "200 OK"
    decide
  rw [handleUploadWebui]
  dsimp only
  by_cases hauth : requireHttpAuth prefs req.authorization = false
  · rw [if_pos hauth]
    exact ⟨rfl, hunauthorized⟩
  by_cases henabled : requireOtaEnabled prefs = false
  · rw [if_neg hauth, if_pos henabled]
    exact ⟨rfl, hdisabled⟩
  by_cases hsize : getLittleFsPartitionSize api = 0
  · rw [if_neg hauth, if_neg henabled, if_pos hsize]
    exact ⟨rfl, sendInternalError_ne _⟩
  rw [if_neg hauth, if_neg henabled, if_neg hsize, if_pos]
  · exact ⟨rfl, hoversize _⟩
  · refine Nat.not_le.mp fun hlen => h ⟨?_, ?_, Nat.pos_of_ne_zero hsize, hlen⟩
    · simpa using hauth
    · simpa using henabled

/-- An admitted request is answered by what the routine gives. -/
theorem handleUploadWebui_of_admitted (h : Admitted api prefs req) (mounted : Bool) (flash : φ) :
    (handleUploadWebui api prefs req mounted flash).toUpload =
        (flashWebuiImage api req.contentLen (startUpload req mounted flash)).2 ∧
      ∀ n, (handleUploadWebui api prefs req mounted flash).reply = sendResultOk n →
        (flashWebuiImage api req.contentLen (startUpload req mounted flash)).1.1 = espOk := by
  obtain ⟨hauth, henabled, hsize, hlen⟩ := h
  have hne (msg : String) (n : ℕ) : sendInternalError msg ≠ sendResultOk n := fun heq =>
    sendInternalError_ne msg (congrArg Reply.status heq)
  rw [handleUploadWebui]
  simp only [hauth, henabled, Bool.true_eq_false, if_false, Nat.ne_of_gt hsize, Nat.not_lt.mpr hlen]
  rcases hflash : flashWebuiImage api req.contentLen
    (startUpload req mounted flash) with ⟨⟨rc, written⟩, t⟩
  rw [startUpload] at hflash
  simp only [hflash]
  split_ifs with hsize hrc
  · exact ⟨rfl, fun n heq => absurd heq (hne _ n)⟩
  · exact ⟨rfl, fun n heq => absurd heq (hne _ n)⟩
  · exact ⟨rfl, fun _ _ => not_not.mp hrc⟩

theorem exists_partitionSize (h : 0 < getLittleFsPartitionSize api) :
    ∃ size, api.partitionSize = some size ∧ getLittleFsPartitionSize api = size := by
  cases hpart : api.partitionSize with
  | none => simp [getLittleFsPartitionSize, hpart] at h
  | some size => exact ⟨size, rfl, by simp [getLittleFsPartitionSize, hpart]⟩

/-- A declared length which was streamed is the image. -/
theorem Streamed.installed {t : Upload φ}
    (h : Streamed api (Reading.pending (startUpload req mounted flash).reads) size
      req.contentLen t)
    (hpos : 0 < req.contentLen) {out : UploadOutcome φ} (hout : out.toUpload = t) :
    out.received ≠ [] ∧ out.received.length = req.contentLen ∧
      out.received = (Reading.pending req.body).take req.contentLen ∧
        out.received <+: api.contents out.flash := by
  subst hout
  have hbody := h.pending
  rw [startUpload, pending_retried] at hbody
  refine ⟨?_, h.length, ?_, ?_⟩
  · exact List.length_pos_iff.mp (h.length ▸ hpos)
  · rw [← hbody, ← h.length, List.take_left]
  · rw [h.contents]
    exact List.prefix_append _ _

end Handler

/-- The answer is ok and the partition is erased only where a whole image is installed, but for
an upload without a length. -/
theorem handleUploadWebui_installsWhole_iff (hapi : api.Lawful) (prefs : Prefs)
    (req : HttpRequest) (mounted : Bool) (flash : φ) :
    InstallsWhole api req (handleUploadWebui api prefs req mounted flash) ↔
      ¬ EmptyUpload api prefs req mounted flash := by
  have hstart : (startUpload req mounted flash).received = [] := rfl
  by_cases hadmitted : Admitted api prefs req
  · obtain ⟨hout, hreply⟩ := handleUploadWebui_of_admitted hadmitted mounted flash
    have herased := flashWebuiImage_erased_iff api
      (rfl : (startUpload req mounted flash).erased = false) req.contentLen
    have hunmount := unmountLittleFs_iff api (startUpload req mounted flash)
    rw [← hout] at herased
    constructor
    · intro hwhole hempty
      obtain ⟨size, hpart, hsize⟩ := exists_partitionSize hempty.found
      have hlen := hadmitted.2.2.2
      rw [hsize] at hlen
      have hvalid := hwhole.erases
        (herased.mpr ⟨size, hpart, hlen, hunmount.mpr hempty.unmounts⟩)
      rw [isValidWebuiUploadSize, isValidUploadSize_iff, hempty.empty] at hvalid
      exact absurd hvalid.1 (Nat.lt_irrefl 0)
    · intro hnot
      have hpos (hunmounts : (unmountLittleFs api (startUpload req mounted flash)).1 = espOk) :
          0 < req.contentLen :=
        Nat.pos_of_ne_zero fun hzero => hnot ⟨hadmitted.1, hadmitted.2.1, hadmitted.2.2.1, hzero,
          hunmount.mp hunmounts⟩
      refine ⟨?_, fun hyes => ?_⟩
      · rintro ⟨n, heq⟩
        have hrc := hreply n heq
        rcases hflash : flashWebuiImage api req.contentLen (startUpload req mounted flash) with
          ⟨⟨rc, written⟩, t⟩
        rw [hflash] at hrc hout
        obtain rfl : rc = espOk := hrc
        obtain ⟨hunmounts, size, n, hstreamed, hn⟩ := flashWebuiImage_ok hapi hstart hflash
        obtain rfl := hn (hpos hunmounts)
        exact hstreamed.installed (hpos hunmounts) hout
      · obtain ⟨size, _, _, hunmounts⟩ := herased.mp hyes
        exact (isValidUploadSize_iff _ _).mpr ⟨hpos hunmounts, hadmitted.2.2.2⟩
  · obtain ⟨herased, hstatus⟩ := handleUploadWebui_of_not_admitted hadmitted mounted flash
    refine iff_of_true ⟨?_, ?_⟩ fun hempty => hadmitted ⟨hempty.authorized, hempty.enabled,
      hempty.found, ?_⟩
    · rintro ⟨n, heq⟩
      exact absurd (congrArg Reply.status heq) hstatus
    · intro hyes
      rw [herased] at hyes
      cases hyes
    · rw [hempty.empty]
      exact Nat.zero_le _

/-- A partition of two bytes which is what it holds. -/
def twoBytes : Storage (List UInt8) where
  partitionSize := some 2
  unregister f := (espOk, f)
  eraseRange _ size _ := (espOk, List.replicate size erasedByte)
  write offset bytes f := (espOk, f.take offset ++ bytes ++ f.drop (offset + bytes.length))
  errToName _ := "ERROR"
  contents f := f

theorem twoBytes_lawful : twoBytes.Lawful where
  erase_ok := by
    intro size f f' hsize herase
    cases hsize
    cases herase
    rfl
  write_ok := by
    intro front bytes f f' k hwrite hcontents hle
    cases hwrite
    change f = front ++ List.replicate k erasedByte at hcontents
    subst hcontents
    change _ ++ bytes ++ _ = _
    rw [List.take_left, List.drop_append, List.drop_eq_nil_of_le (Nat.le_add_right _ _),
      List.nil_append, List.drop_replicate, Nat.add_sub_cancel_left]

/-- Two bytes in two pieces, with a timeout between them. -/
def twoPieces : HttpRequest where
  contentLen := 2
  body := [.got [1], .failed httpdSockErrTimeout, .got [2]]

theorem installsWhole_twoPieces :
    InstallsWhole twoBytes twoPieces (handleUploadWebui twoBytes Prefs.empty twoPieces true []) :=
  (handleUploadWebui_installsWhole_iff twoBytes_lawful _ _ _ _).mpr
    fun h => absurd h.empty (by decide)

/-- A request without a body. -/
def noBody : HttpRequest where
  contentLen := 0
  body := []

/-- The partition is erased and the answer is ok. -/
theorem noBody_not_installsWhole :
    (handleUploadWebui twoBytes Prefs.empty noBody true [1, 2]).erased = true ∧
      (handleUploadWebui twoBytes Prefs.empty noBody true [1, 2]).flash =
        [erasedByte, erasedByte] ∧
      (handleUploadWebui twoBytes Prefs.empty noBody true [1, 2]).reply = sendResultOk 0 ∧
      ¬ InstallsWhole twoBytes noBody
        (handleUploadWebui twoBytes Prefs.empty noBody true [1, 2]) := by
  have herased : (handleUploadWebui twoBytes Prefs.empty noBody true [1, 2]).erased = true := by
    decide +kernel
  refine ⟨herased, by decide +kernel, by decide +kernel, fun h => ?_⟩
  exact absurd (h.erases herased) (by decide)

end Webserver

end BtClock
