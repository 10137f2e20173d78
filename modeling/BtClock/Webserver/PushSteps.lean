import BtClock.Webserver.FirmwareUpdates

/-!
# An uninterrupted push

The steps of the worker, taken one behind the other, are what `WritePushImage` does.
-/

namespace BtClock

namespace Webserver

open Reading Nostr Ota Transition

namespace Updates

variable {φ : Type*} {api : EspOta φ} {next : Option Partition} {keyValue : QueryKeyValue}
  {s : Updates} {part : Partition} {handle : ℕ} {up : PushUpload} {p : Push φ}

/-- The worker goes to `s'`. -/
def WorkerReaches (next : Option Partition) (keyValue : QueryKeyValue) (s s' : Updates) : Prop :=
  ∃ acts, reached (stepWorker next keyValue) s acts = s'

theorem WorkerReaches.refl (s : Updates) : WorkerReaches next keyValue s s :=
  ⟨[], rfl⟩

theorem WorkerReaches.head {s' : Updates} (a : WorkerAct)
    (h : WorkerReaches next keyValue (stepWorker next keyValue s a).1 s') :
    WorkerReaches next keyValue s s' := by
  obtain ⟨acts, hacts⟩ := h
  exact ⟨a :: acts, hacts⟩

theorem WorkerReaches.of_step {s' : Updates} (a : WorkerAct)
    (h : (stepWorker next keyValue s a).1 = s') : WorkerReaches next keyValue s s' :=
  ⟨[a], h⟩

theorem WorkerReaches.trans {t u : Updates} (hst : WorkerReaches next keyValue s t)
    (htu : WorkerReaches next keyValue t u) : WorkerReaches next keyValue s u := by
  obtain ⟨acts, rfl⟩ := hst
  obtain ⟨acts', rfl⟩ := htu
  exact ⟨acts ++ acts', reached_append s acts acts'⟩

/-- Where the worker stands behind the loop. -/
def afterLoop (s : Updates) (part : Partition) (up : PushUpload) :
    Except PushFailure ℕ × Push φ → Updates
  | (.ok n, p) => s.setWorker (.streamed part { up with written := n, md := p.md })
  | (.error _, _) => s.setWorker (.releasing false)

theorem stepWorker_recv (hworker : s.worker = .writing part up) (r : Read UInt8 ℤ)
    (rc : EspErr) :
    stepWorker next keyValue s (.recv r rc) = s.pushRecv part up r rc := by
  simp only [stepWorker, hworker]

/-- What the worker streamed before does not matter. -/
theorem afterLoop_setWorker (w : Worker) {up' : PushUpload}
    (hexpected : up'.expectedBytes = up.expectedBytes)
    (hsha : up'.expectedSha256Hex = up.expectedSha256Hex) (x : Except PushFailure ℕ × Push φ) :
    afterLoop (s.setWorker w) part up' x = afterLoop s part up x := by
  obtain ⟨r, p⟩ := x
  cases r with
  | error e => rfl
  | ok n =>
      simp only [afterLoop, hexpected, hsha]
      rfl

theorem workerReaches_writeLoop {s : Updates} {up : PushUpload} {p : Push φ} {written : ℕ}
    (hworker : s.worker = .writing part up) (hwritten : up.written = written) (hmd : up.md = p.md)
    (nextProgress : ℕ) :
    WorkerReaches next keyValue s (afterLoop s part up
      (writeLoop api handle (up.cap part) up.expectedBytes p written nextProgress)) := by
  have hself : { up with written := written, md := p.md } = up := by
    rw [← hwritten, ← hmd]
  rw [writeLoop]
  by_cases hlt : written < up.cap part
  · rw [dif_pos hlt]
    have hmore : up.written < up.cap part := hwritten ▸ hlt
    rcases hrecv : recv (min kChunk (up.cap part - written)) p.reads with ⟨read, reads⟩
    have hgiven : (recv (min kChunk (up.cap part - up.written)) [read]).1 = read := by
      have hsame := recv_recv (min kChunk (up.cap part - written)) p.reads
      rw [hrecv] at hsame
      rw [hwritten]
      exact hsame
    cases read with
    | failed e =>
        have hstep : (stepWorker next keyValue s (.recv (.failed e) espOk)).1 =
            s.setWorker (.releasing false) := by
          rw [stepWorker_recv hworker]
          simp only [pushRecv, if_pos hmore, hgiven]
        exact .of_step _ hstep
    | got items =>
        cases items with
        | nil =>
            have hstep : (stepWorker next keyValue s (.recv (.got []) espOk)).1 =
                if up.expectedBytes = 0 then s.setWorker (.streamed part up)
                else s.setWorker (.releasing false) := by
              rw [stepWorker_recv hworker]
              simp only [pushRecv, if_pos hmore, hgiven]
              split <;> rfl
            by_cases hzero : up.expectedBytes = 0
            · simp only [if_pos hzero, afterLoop, hself]
              rw [if_pos hzero] at hstep
              exact .of_step _ hstep
            · simp only [if_neg hzero, afterLoop]
              rw [if_neg hzero] at hstep
              exact .of_step _ hstep
        | cons b bs =>
            rcases hwrite : api.append handle (b :: bs) p.flash with ⟨rc, flash⟩
            have hflash :
                api.append handle (b :: bs) (p.take (b :: bs) reads).flash = (rc, flash) :=
              hwrite
            let up' : PushUpload := { up with
              written := up.written + (b :: bs).length
              md := sha256Update up.md (b :: bs) }
            have hstep : (stepWorker next keyValue s (.recv (.got (b :: bs)) rc)).1 =
                if rc ≠ espOk then s.setWorker (.releasing false)
                else s.setWorker (.writing part up') := by
              rw [stepWorker_recv hworker]
              simp only [pushRecv, if_pos hmore, hgiven]
              split <;> rfl
            simp only [hflash]
            by_cases hrc : rc = espOk
            · rw [if_neg (not_not_intro hrc)] at hstep ⊢
              refine .head (.recv (.got (b :: bs)) rc) ?_
              have hsame : ∀ x : Except PushFailure ℕ × Push φ,
                  afterLoop (s.setWorker (.writing part up')) part up' x = afterLoop s part up x :=
                afterLoop_setWorker _ rfl rfl
              rw [hstep, ← hsame]
              have hwritten' : up'.written = written + (b :: bs).length := by
                rw [← hwritten]
              -- `emit` and `flashed` leave the digest alone
              have hmd' : up'.md = sha256Update p.md (b :: bs) := by
                rw [← hmd]
              have hless : up'.cap part - (written + (b :: bs).length) < up.cap part - written := by
                change up.cap part - (written + (b :: bs).length) < up.cap part - written
                rw [List.length_cons]
                omega
              split_ifs
              · exact workerReaches_writeLoop rfl hwritten' hmd' _
              · exact workerReaches_writeLoop rfl hwritten' hmd' _
            · rw [if_pos hrc] at hstep ⊢
              exact .of_step _ hstep
  · rw [dif_neg hlt]
    have hstep : (stepWorker next keyValue s (.recv (.got []) espOk)).1 =
        s.setWorker (.streamed part up) := by
      rw [stepWorker_recv hworker]
      simp only [pushRecv, if_neg (hwritten ▸ hlt)]
    simp only [afterLoop, hself]
    exact .of_step _ hstep
termination_by up.cap part - written

/-- Where the worker stands behind `WritePushImageImpl`. -/
def afterImpl (s : Updates) (installed : Option Partition) : Except PushFailure ℕ → Updates
  | .ok _ => { s with worker := .releasing true, installed := installed }
  | .error _ => s.setWorker (.releasing false)

theorem afterImpl_setWorker (w : Worker) (installed : Option Partition)
    (r : Except PushFailure ℕ) :
    afterImpl (s.setWorker w) installed r = afterImpl s installed r := by
  cases r <;> rfl

/-- `esp_ota_end` and `esp_ota_set_boot_partition`, once the digest is accepted. -/
theorem workerReaches_activate {written : ℕ}
    (hfinish : ∀ rc, (stepWorker next keyValue s (.finish rc)).1 =
      if rc ≠ espOk then s.setWorker (.releasing false) else s.setWorker (.ended part)) :
    WorkerReaches next keyValue s
      (afterImpl s (some part) (activate api part handle written p).1.1) := by
  rcases hend : api.finish handle p.flash with ⟨rc, flash⟩
  have hstep := hfinish rc
  simp only [activate, hend]
  by_cases hrc : rc = espOk
  · rw [if_neg (not_not_intro hrc)] at hstep ⊢
    refine .head (.finish rc) ?_
    rw [hstep]
    rcases hboot : api.select part flash with ⟨rc', flash'⟩
    have hflash : api.select part (p.flashed rc flash).flash = (rc', flash') := hboot
    simp only [hflash]
    refine .of_step (.activate rc') ?_
    by_cases hrc' : rc' = espOk
    · simp only [stepWorker, setWorker, if_neg (not_not_intro hrc')]
      rfl
    · simp only [stepWorker, setWorker, if_pos hrc']
      rfl
  · rw [if_pos hrc] at hstep ⊢
    exact .of_step _ hstep

theorem workerReaches_verify {written : ℕ} (hworker : s.worker = .streamed part up)
    (hwritten : up.written = written) (hmd : up.md = p.md) :
    WorkerReaches next keyValue s (afterImpl s (some part)
      (verify api part handle up.expectedBytes up.expectedSha256Hex written p).1.1) := by
  have hstep : ∀ rc, (stepWorker next keyValue s (.finish rc)).1 = s.pushFinish part up rc := by
    intro rc
    simp only [stepWorker, hworker]
  have hfinal : sha256Final up.md =
      sha256Final (p.emit ⟨written, up.expectedBytes, .verifying⟩).md :=
    congrArg sha256Final hmd
  rw [verify]
  by_cases hlength : 0 < up.expectedBytes ∧ written ≠ up.expectedBytes
  · rw [if_pos hlength]
    refine .of_step (.finish espOk) ((hstep espOk).trans ?_)
    rw [pushFinish, hwritten, if_pos hlength]
    rfl
  · rw [if_neg hlength]
    by_cases hdigest : digestAccepted up.expectedSha256Hex (sha256Final up.md) = true
    · simp only [← hfinal, if_pos hdigest]
      refine workerReaches_activate fun rc => (hstep rc).trans ?_
      rw [pushFinish, hwritten, if_neg hlength, if_pos hdigest]
    · simp only [← hfinal, if_neg hdigest]
      refine .of_step (.finish espOk) ((hstep espOk).trans ?_)
      rw [pushFinish, hwritten, if_neg hlength, if_neg hdigest]
      rfl

theorem workerReaches_stream (heap : Heap) (hworker : s.worker = .writing part up)
    (hwritten : up.written = 0) (hmd : up.md = sha256Init)
    (hheap : (!heap.md || !heap.buf) = false) :
    WorkerReaches next keyValue s (afterImpl s (some part)
      (stream api heap part handle up.expectedBytes up.expectedSha256Hex p).1.1) := by
  have hloop : WorkerReaches next keyValue s (afterLoop s part up
      (writeLoop api handle (up.cap part) up.expectedBytes
        ({ p with md := sha256Init }.emit ⟨0, up.expectedBytes, .writing⟩) 0
        kProgressStepBytes)) :=
    workerReaches_writeLoop hworker hwritten hmd kProgressStepBytes
  rw [stream, hheap]
  simp only [Bool.false_eq_true, if_false]
  rw [PushUpload.cap] at hloop
  revert hloop
  generalize writeLoop api handle _ up.expectedBytes _ 0 kProgressStepBytes = out
  intro hloop
  rcases out with ⟨e | n, p'⟩
  · exact hloop
  · refine hloop.trans ?_
    let up' : PushUpload := { up with written := n, md := p'.md }
    have hverify : WorkerReaches next keyValue (s.setWorker (.streamed part up'))
        (afterImpl (s.setWorker (.streamed part up')) (some part)
          (verify api part handle up'.expectedBytes up'.expectedSha256Hex n p').1.1) :=
      workerReaches_verify rfl rfl rfl
    rw [afterImpl_setWorker] at hverify
    exact hverify

theorem otaHandleGuard_fst {α : Type*} (handle : ℕ) (x : (α × Bool) × Push φ) :
    (otaHandleGuard api handle x).1 = x.1.1 := by
  obtain ⟨⟨r, released⟩, p⟩ := x
  cases released <;> rfl

/-- Behind the exchange, up to the release of the flag. -/
theorem workerReaches_writePushImageImpl (heap : Heap) (hworker : s.worker = .claimed up)
    (hwritten : up.written = 0) (hmd : up.md = sha256Init)
    (hnext : api.nextUpdatePartition p.flash = next) :
    WorkerReaches next keyValue s (afterImpl s next
      (writePushImageImpl api heap up.expectedBytes up.expectedSha256Hex p).1) := by
  have hstep : ∀ rc, (stepWorker next keyValue s (.push rc heap)).1 =
      s.pushBegin next up rc heap := by
    intro rc
    simp only [stepWorker, hworker]
  cases next with
  | none =>
      simp only [writePushImageImpl, hnext]
      exact .of_step _ (hstep espOk)
  | some part =>
      by_cases hsize : part.size < up.expectedBytes
      · simp only [writePushImageImpl, hnext, if_pos hsize]
        refine .of_step _ ((hstep espOk).trans ?_)
        simp only [pushBegin, if_pos hsize]
        rfl
      · rcases hbegin : api.start part p.flash with ⟨rc, handle, flash⟩
        simp only [writePushImageImpl, hnext, if_neg hsize, hbegin]
        have hafter := hstep rc
        simp only [pushBegin, if_neg hsize] at hafter
        by_cases hrc : rc = espOk
        · rw [if_neg (not_not_intro hrc)] at hafter ⊢
          rw [otaHandleGuard_fst]
          cases hheap : (!heap.md || !heap.buf) with
          | true =>
              rw [hheap, if_pos rfl] at hafter
              refine .of_step _ (hafter.trans ?_)
              rw [stream, hheap, if_pos rfl]
              rfl
          | false =>
              rw [hheap, if_neg Bool.false_ne_true] at hafter
              refine .head (.push rc heap) ?_
              rw [hafter, ← afterImpl_setWorker (.writing part up)]
              exact workerReaches_stream heap rfl hwritten hmd hheap
        · rw [if_pos hrc] at hafter ⊢
          exact .of_step _ hafter

/-- A failure never carries the code of a success. -/
def NamesFailure (r : Except PushFailure ℕ) : Prop :=
  ∀ f, r = .error f → f.rc ≠ espOk

theorem namesFailure_ok (n : ℕ) : NamesFailure (.ok n) :=
  nofun

theorem namesFailure_error {rc : EspErr} (hrc : rc ≠ espOk) (n : ℕ) :
    NamesFailure (.error ⟨rc, n⟩) := by
  rintro f ⟨⟩
  exact hrc

theorem namesFailure_writeLoop (cap expectedBytes : ℕ) (p : Push φ) (written nextProgress : ℕ) :
    NamesFailure (writeLoop api handle cap expectedBytes p written nextProgress).1 := by
  have hfail : espFail ≠ espOk := by decide
  fun_induction writeLoop api handle cap expectedBytes p written nextProgress with
  | case1 | case3 => exact namesFailure_error hfail _
  | case2 | case7 => exact namesFailure_ok _
  | case4 p written nextProgress hlt b bs reads heq p' rc flash hwrite p'' hrc =>
      exact namesFailure_error hrc _
  | case5 _ _ _ _ _ _ _ _ _ _ _ _ _ _ _ _ ih => exact ih
  | case6 _ _ _ _ _ _ _ _ _ _ _ _ _ _ _ _ ih => exact ih

theorem namesFailure_activate (part : Partition) (written : ℕ) (p : Push φ) :
    NamesFailure (activate api part handle written p).1.1 := by
  rw [activate]
  dsimp only
  split_ifs with hrc hrc'
  · exact namesFailure_error hrc _
  · exact namesFailure_error hrc' _
  · exact namesFailure_ok _

theorem namesFailure_verify (part : Partition) (expectedBytes : ℕ)
    (expectedSha256Hex : Option (List Char)) (written : ℕ) (p : Push φ) :
    NamesFailure (verify api part handle expectedBytes expectedSha256Hex written p).1.1 := by
  rw [verify]
  dsimp only
  split_ifs
  · exact namesFailure_error (by decide) _
  · exact namesFailure_activate part written _
  · exact namesFailure_error (by decide) _

theorem namesFailure_stream (heap : Heap) (part : Partition) (expectedBytes : ℕ)
    (expectedSha256Hex : Option (List Char)) (p : Push φ) :
    NamesFailure (stream api heap part handle expectedBytes expectedSha256Hex p).1.1 := by
  rw [stream]
  by_cases hheap : (!heap.md || !heap.buf) = true
  · rw [if_pos hheap]
    exact namesFailure_error (by decide) _
  · rw [if_neg hheap]
    have hloop : ∀ cap p, NamesFailure
        (writeLoop api handle cap expectedBytes p 0 kProgressStepBytes).1 :=
      fun cap p => namesFailure_writeLoop cap expectedBytes p 0 kProgressStepBytes
    dsimp only
    specialize hloop (if 0 < expectedBytes then expectedBytes else part.size)
      ({ p with md := sha256Init }.emit ⟨0, expectedBytes, .writing⟩)
    revert hloop
    generalize writeLoop api handle _ expectedBytes _ 0 kProgressStepBytes = out
    intro hloop
    rcases out with ⟨e | n, p'⟩
    · exact hloop
    · exact namesFailure_verify part expectedBytes expectedSha256Hex n p'

theorem namesFailure_writePushImageImpl (heap : Heap) (expectedBytes : ℕ)
    (expectedSha256Hex : Option (List Char)) (p : Push φ) :
    NamesFailure (writePushImageImpl api heap expectedBytes expectedSha256Hex p).1 := by
  rw [writePushImageImpl]
  cases api.nextUpdatePartition p.flash with
  | none => exact namesFailure_error (by decide) _
  | some part =>
      dsimp only
      split_ifs with hsize hrc
      · exact namesFailure_error (by decide) _
      · exact namesFailure_error hrc _
      · rw [otaHandleGuard_fst]
        exact namesFailure_stream heap part expectedBytes expectedSha256Hex _

/-- What the steps of the worker make of a push is what the call of `WritePushImage` makes of
it: the partition is installed exactly when the call succeeds. -/
theorem workerReaches_writePushImage (heap : Heap) (reads : Reads) {expectedBytes : ℕ}
    {expectedSha256Hex : Option (List Char)} {m : OtaManager φ} (hclear : m.isUpdating = false)
    (hnext : api.nextUpdatePartition m.flash = next)
    (hworker : s.worker =
      .claimed { expectedBytes := expectedBytes, expectedSha256Hex := expectedSha256Hex }) :
    WorkerReaches next keyValue s
      (if (writePushImage api heap (some reads) expectedBytes expectedSha256Hex m).rc = espOk then
        { s with worker := .releasing true, installed := next }
      else s.setWorker (.releasing false)) := by
  let p : Push φ := ({ m with
    isUpdating := true, reads := reads, md := sha256Init, emitted := [], received := []
    codes := [] } : Push φ).emit ⟨0, expectedBytes, .starting⟩
  have hsteps : WorkerReaches next keyValue s (afterImpl s next
      (writePushImageImpl api heap expectedBytes expectedSha256Hex p).1) :=
    workerReaches_writePushImageImpl heap hworker rfl rfl hnext
  have hnames : NamesFailure (writePushImageImpl api heap expectedBytes expectedSha256Hex p).1 :=
    namesFailure_writePushImageImpl heap expectedBytes expectedSha256Hex p
  simp only [writePushImage, reduceCtorEq, if_false, hclear, Bool.false_eq_true]
  rcases hout : writePushImageImpl api heap expectedBytes expectedSha256Hex (Push.emit
    ⟨⟨true, m.flash⟩, (some reads).getD [], sha256Init, [], [], []⟩
    ⟨0, expectedBytes, .starting⟩) with ⟨f | n, p'⟩
  · rw [show writePushImageImpl api heap expectedBytes expectedSha256Hex p = (.error f, p') from
      hout] at hsteps hnames
    exact (if_neg (hnames f rfl)).symm ▸ hsteps
  · rw [show writePushImageImpl api heap expectedBytes expectedSha256Hex p = (.ok n, p') from
      hout] at hsteps
    exact (if_pos rfl).symm ▸ hsteps

end Updates

end Webserver

end BtClock
