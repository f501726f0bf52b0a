import ReplicatedFs.Library.Posix.Content
import ReplicatedFs.Library.Posix.Overwrite
import ReplicatedFs.Proofs.Mirror.Promise
import ReplicatedFs.Rfs.Copy

/-!
# `ReplicatedFs.Proofs.Rfs.Copies`: where a copy of a range leads

`Mirror.Mirror` makes one call of `copy_file_range` for a request and compares its result with the
whole length. The end of the source and a short copy are errors there, while `root.CopyFileRange`
returns the number and the application goes on.

* `Copying.fits`: the range lies in the source, the other peer copies all of it in one call, and the
  32 bits of the result do not end the loop too early.
* `Placed.advance`: what one such turn does.
* `copies_converge_iff`: both sides agree at the end, without an error of `Mirror.Mirror`, exactly
  when every turn is one of these.
-/

set_option autoImplicit false

namespace ReplicatedFs.Rfs

open ReplicatedFs.Protobuf
open Library Library.Posix

/-- What is left of the range. -/
def Copying.rest (s : Copying) (source : List UInt8) : List UInt8 :=
  (source.drop s.offIn.toNat).take s.len.toNat

/-- The other peer can read its source, and it copies what is left in one call. -/
def Copying.exact (c : Setup) (k : Copier) (s : Copying) (t : Turn) : Bool :=
  match s.pair.fileHere k.fhIn, s.pair.fileThere c k.fhIn with
  | some (_, source), some (_, mode, _) =>
    c.peerProc.may mayRead mode && s.len.toNat < 2 ^ 63 &&
      s.offIn.toNat + s.len.toNat ≤ source.length && t.there.count s.len.toNat = s.len.toNat
  | _, _ => false

/-- The result of the call here has bits that are returned, or there is nothing left to do. -/
def Copying.goesOn (k : Copier) (s : Copying) (t : Turn) : Bool :=
  match s.pair.fileHere k.fhIn, s.pair.fileHere k.fhOut with
  | some (_, source), some (_, content) =>
    t.here.count s.len.toNat % 2 ^ 32 ≠ 0 ||
      overwrite content ((s.rest source).take (t.here.count s.len.toNat)) s.offOut.toNat =
        overwrite content (s.rest source) s.offOut.toNat
  | _, _ => false

/-- The turn does the same on both sides. -/
def Copying.fits (c : Setup) (k : Copier) (s : Copying) (t : Turn) : Bool :=
  s.exact c k t && s.goesOn k t

/-- Where the two files are: the handles and descriptors here, the paths and modes there. -/
structure Places where
  rfsInFile : Handle
  rfsOutFile : Handle
  fileIn : OpenFile
  fileOut : OpenFile
  pathIn : Path
  pathOut : Path
  modeIn : Mode
  modeOut : Mode

/-- The contents of the two files on both sides. -/
structure Contents where
  source : List UInt8
  target : List UInt8
  source' : List UInt8
  target' : List UInt8

/-- The files are in their places. -/
structure Placed (c : Setup) (k : Copier) (p : Places) (s : Pair) (x : Contents) : Prop where
  handleIn : s.mount.handle? k.fhIn = some p.rfsInFile
  handleOut : s.mount.handle? k.fhOut = some p.rfsOutFile
  fileIn : s.mount.disk.file? p.rfsInFile.fd = some p.fileIn
  fileOut : s.mount.disk.file? p.rfsOutFile.fd = some p.fileOut
  source : s.mount.disk.content? p.fileIn.ref = some x.source
  target : s.mount.disk.content? p.fileOut.ref = some x.target
  source' : resolve c.peerProc s.replica.1 true (c.peerMirror.path p.rfsInFile.path) =
    .ok (.existing p.pathIn (.file p.modeIn x.source'))
  target' : resolve c.peerProc s.replica.1 true (c.peerMirror.path p.rfsOutFile.path) =
    .ok (.existing p.pathOut (.file p.modeOut x.target'))
  same : p.fileIn.ref = p.fileOut.ref ↔ p.pathIn = p.pathOut

/-- What is left is the same on both sides, and so are the targets once it is copied. -/
structure Aligned (s : Copying) (x : Contents) : Prop where
  rest : s.rest x.source = s.rest x.source'
  full : overwrite x.target (s.rest x.source) s.offOut.toNat =
    overwrite x.target' (s.rest x.source') s.offOut.toNat

section Processes
variable {proc : Process} {k : Copies} {s : Store}

/-- How much a kernel copies in a turn has no part in what the process may do. -/
@[simp] theorem may_copying (bit mode : Mode) :
    (copying proc k).may bit mode = proc.may bit mode := rfl

/-- Nor has it a part in where a path leads. So both turns look at the same files. -/
@[simp] theorem resolve_copying (follow : Bool) (p : Path) :
    resolve (copying proc k) s follow p = resolve proc s follow p :=
  resolve_eq_of_may may_copying follow p

end Processes

section Bytes
variable {s : Copying}

/-- There is still to be copied what the caller asked for, cut off at the end of the source. -/
theorem Copying.length_rest (source : List UInt8) :
    (s.rest source).length = available source.length s.offIn s.len := by
  simp [Copying.rest, available]

/-- One side of a turn: `n` bytes are copied, and the loop advances by `m` of them. Afterwards what
is left is the rest of what was left, also in the file that was written to, and to copy it gives
what it would have given before. -/
theorem advance_bytes {s₁ : Copying} {source target : List UInt8} {m n : Nat} (same : Prop)
    [Decidable same] (hsame : same → source = target)
    (hinside : s.offIn.toNat + s.len.toNat ≤ source.length)
    (hapart : same → s.offOut.toNat + s.len.toNat ≤ s.offIn.toNat ∨
      s.offIn.toNat + s.len.toNat ≤ s.offOut.toNat)
    (hm : m ≤ n) (hn : n ≤ s.len.toNat) (hin : s₁.offIn.toNat = s.offIn.toNat + m)
    (hout : s₁.offOut.toNat = s.offOut.toNat + m) (hlen : s₁.len.toNat = s.len.toNat - m)
    {target₁ : List UInt8}
    (htarget : target₁ = overwrite target ((s.rest source).take n) s.offOut.toNat) :
    s₁.rest (if same then target₁ else source) = (s.rest source).drop m ∧
      overwrite target₁ ((s.rest source).drop m) s₁.offOut.toNat =
        overwrite target (s.rest source) s.offOut.toNat := by
  have hrest : (s.rest source).length = s.len.toNat := by
    rw [Copying.length_rest, available]
    omega
  have hdrop : (s.rest source).drop m = (source.drop s₁.offIn.toNat).take s₁.len.toNat := by
    rw [Copying.rest, List.drop_take, List.drop_drop, hin, hlen]
  refine ⟨?_, ?_⟩
  · rw [hdrop, Copying.rest]
    by_cases h : same
    · -- The bytes that are left are apart from those that were written.
      rw [if_pos h, htarget, ← hsame h]
      refine drop_take_overwrite (by omega) ?_
      have hpart : ((s.rest source).take n).length = n := by simp [hrest]; omega
      rw [hpart]
      rcases hapart h with hbefore | hafter
      · exact .inr (by omega)
      · exact .inl (by omega)
    · rw [if_neg h]
  · rw [htarget, hout]
    exact overwrite_take_drop hm (by omega)

end Bytes

section Files
variable {c : Setup} {s : Pair} {fh : Nat}

/-- The file of a handle is found through the handle, its descriptor and the open file. -/
theorem Pair.fileHere_eq_some {file : OpenFile} {content : List UInt8} :
    s.fileHere fh = some (file, content) ↔ ∃ f, s.mount.handle? fh = some f ∧
      s.mount.disk.file? f.fd = some file ∧ s.mount.disk.content? file.ref = some content := by
  simp [Pair.fileHere, Option.bind_eq_some_iff]

/-- The peer has no handle. It finds the file by the path that the request carries, and opens it
anew in every turn. -/
theorem Pair.fileThere_eq_some {q : Path} {mode : Mode} {content : List UInt8} :
    s.fileThere c fh = some (q, mode, content) ↔ ∃ f, s.mount.handle? fh = some f ∧
      resolve c.peerProc s.replica.1 true (c.peerMirror.path f.path) =
        .ok (.existing q (.file mode content)) := by
  simp only [Pair.fileThere, Option.bind_eq_some_iff]
  refine exists_congr fun f => and_congr_right fun _ => ?_
  split <;> simp_all

end Files

section Calls
variable {c : Setup} {k : Copier} {p : Places} {s : Copying} {x : Contents} {t : Turn}

/-- The next call finds both of its handles, so it is guarded and asks the peers. -/
theorem Placed.guarded (h : Placed c k p s.pair x) :
    s.pair.mount.guarded? (k.call s) =
      some (.copyFileRange p.rfsInFile p.rfsOutFile s.offIn s.offOut s.len k.flags) := by
  have hin : (some k.fhIn).bind s.pair.mount.handle? = some p.rfsInFile := h.handleIn
  have hout : (some k.fhOut).bind s.pair.mount.handle? = some p.rfsOutFile := h.handleOut
  exact Mount.guarded?_copyFileRange hin hout k.path s.offIn s.offOut s.len k.flags

/-- Its request, with the offsets and the length that the loop has come to. -/
theorem Placed.request (h : Placed c k p s.pair x) :
    s.pair.mount.request? (k.call s) =
      some (copyRequest p.rfsInFile p.rfsOutFile s.offIn s.offOut s.len) :=
  Mount.request?_of_guarded h.guarded

/-- The files of the handles, on this side and on the other one. All conditions of the loop are read
off their contents. -/
theorem Placed.files (h : Placed c k p s.pair x) :
    s.pair.fileHere k.fhIn = some (p.fileIn, x.source) ∧
      s.pair.fileHere k.fhOut = some (p.fileOut, x.target) ∧
      s.pair.fileThere c k.fhIn = some (p.pathIn, p.modeIn, x.source') ∧
      s.pair.fileThere c k.fhOut = some (p.pathOut, p.modeOut, x.target') := by
  simp [Pair.fileHere, Pair.fileThere, h.handleIn, h.handleOut, h.fileIn, h.fileOut, h.source,
    h.target, h.source', h.target']

/-- One file has one content, so a copy within a file changes its own source. -/
theorem Placed.source_eq (h : Placed c k p s.pair x) (hsame : p.fileIn.ref = p.fileOut.ref) :
    x.source = x.target := by
  have hsource := h.source
  rw [hsame, h.target] at hsource
  exact (Option.some.inj hsource).symm

/-- When the caller copies inside one file, the peer reads and writes one file as well. -/
theorem Placed.source'_eq (h : Placed c k p s.pair x) (hsame : p.pathIn = p.pathOut) :
    x.source' = x.target' := by
  have hsource : s.pair.replica.1.get p.pathIn = some (.file p.modeIn x.source') :=
    resolve_sound h.source'
  have htarget : s.pair.replica.1.get p.pathOut = some (.file p.modeOut x.target') :=
    resolve_sound h.target'
  rw [hsame, htarget] at hsource
  simp only [Option.some.injEq, Node.file.injEq] at hsource
  exact hsource.2.symm

/-- The call here copies, and returns the number. The kernel may have copied less than was asked
for, and `proc` says how much. The offsets are those of the signed numbers that are passed to the
system call. -/
theorem Placed.call_here (h : Placed c k p s.pair x) {proc : Process} {mount : Mount}
    (hcall : s.pair.mount.call c.mirror proc c.loopback none (k.call s) =
      some (.ok (mount, none))) :
    ∃ n, copyCount proc x.source.length (p.fileIn.ref = p.fileOut.ref) s.offIn.toInt64
        s.offOut.toInt64 s.len.toInt64 = .ok n ∧
      mount = { s.pair.mount with
        disk := s.pair.mount.disk.setContent
          (overwrite x.target ((x.source.drop s.offIn.toInt64.toInt.toNat).take n)
            s.offOut.toInt64.toInt.toNat) p.fileOut.ref } ∧
      k.returned proc s = UInt32.ofNat n ∧
      s.pair.mount.asks c.mirror proc (k.call s) =
        some (copyRequest p.rfsInFile p.rfsOutFile s.offIn s.offOut s.len) := by
  rw [Mount.call_of_guarded _ _ _ h.guarded, Option.some.injEq] at hcall
  rcases Mount.permitted_cases h.request hcall with ⟨-, -, herr⟩ | ⟨hasks, honward⟩
  · simp at herr
  -- The call did not fail, so the files could be read and written.
  simp only [Guarded.copyFileRange, Mount.withDisk, Prod.mk.injEq] at honward
  obtain ⟨hmount, herrno⟩ := honward
  unfold Copier.returned
  simp only [h.handleIn, h.handleOut]
  unfold Disk.copyFileRange at hmount herrno ⊢
  simp only [h.fileIn, h.fileOut, h.source, h.target] at hmount herrno ⊢
  by_cases hflags : k.flags ≠ 0
  · simp [hflags, errno?] at herrno
  by_cases hopen : p.fileIn.read = false ∨ p.fileOut.write = false
  · simp [hflags, hopen, errno?] at herrno
  simp only [if_neg hflags, if_neg hopen, copyContent] at hmount herrno ⊢
  cases hcount : copyCount proc x.source.length (p.fileIn.ref = p.fileOut.ref) s.offIn.toInt64
      s.offOut.toInt64 s.len.toInt64 with
  | error err => simp [hcount, Except.map, errno?] at herrno
  | ok n =>
    simp only [hcount, Except.map] at hmount ⊢
    exact ⟨n, rfl, hmount, rfl, hasks⟩

/-- The other peer agrees only when it can write to its file. It tests the access when it is
consulted. -/
theorem Placed.writable_of_agrees (h : Placed c k p s.pair x)
    (hagrees : s.pair.agrees (c.during t) (k.call s) = true) :
    c.peerProc.may mayWrite p.modeOut = true := by
  have hack : ((c.peerMirror.answers (copying c.peerProc t.there) s.pair.replica.1
      (copyMetadata p.rfsInFile p.rfsOutFile s.offIn s.offOut s.len)).consultCopy
        (copyMetadata p.rfsInFile p.rfsOutFile s.offIn s.offOut s.len)).type = .ack := by
    simpa [Pair.agrees, h.request, Setup.during, copyRequest, Mirror.consult, Answers.consult]
      using hagrees
  obtain ⟨-, -, -, q, mode, content, -, htarget, hmay⟩ := consultCopy_ack.mp hack
  -- The file that `syscall.Access` was asked about is the target of the copy.
  have htarget' : resolve c.peerProc s.pair.replica.1 true (c.peerMirror.path p.rfsOutFile.path) =
      .ok (.existing q (.file mode content)) := by
    rw [← resolve_copying]
    exact htarget
  rw [h.target'] at htarget'
  cases htarget'
  rw [may_copying] at hmay
  exact hmay

/-- What `Mirror.Mirror` of the other peer does. It fails when it cannot read the source, and when
it does not copy the whole length. In the second case it has copied a part nevertheless. `hwrite` is
what the other peer has tested when it was consulted. -/
theorem Placed.mirror_there (h : Placed c k p s.pair x)
    (hasks : s.pair.mount.asks c.mirror (c.during t).proc (k.call s) =
      some (copyRequest p.rfsInFile p.rfsOutFile s.offIn s.offOut s.len))
    (hwrite : c.peerProc.may mayWrite p.modeOut = true) {n : Nat}
    (hcount : copyCount (copying c.peerProc t.there) x.source'.length (p.pathIn = p.pathOut)
      s.offIn.toInt64 s.offOut.toInt64 s.len.toInt64 = .ok n) {replica : Tree}
    {err : Option String}
    (hmirrored : s.pair.mirrored (c.during t) (k.call s) = .ok (replica, err)) :
    (c.peerProc.may mayRead p.modeIn = false → err ≠ none) ∧
      (c.peerProc.may mayRead p.modeIn = true →
        replica.1 = s.pair.replica.1.put p.pathOut (.file p.modeOut
          (overwrite x.target' ((x.source'.drop s.offIn.toInt64.toInt.toNat).take n)
            s.offOut.toInt64.toInt.toNat)) ∧
        (err = none ↔ (n : Int) = s.len.toInt64.toInt)) := by
  have hopenIn : openFile (copying c.peerProc t.there) s.pair.replica.1 { read := true } 0
      (c.peerMirror.path p.rfsInFile.path) =
      if c.peerProc.may mayRead p.modeIn = false then .error .eacces
      else .ok (p.pathIn, .keep) := by
    simp [openFile_of_usual, OpenFlags.usual, openPath, OpenFlags.follows, h.source']
  have hopenOut : openFile (copying c.peerProc t.there) s.pair.replica.1 { write := true } 0
      (c.peerMirror.path p.rfsOutFile.path) = .ok (p.pathOut, .keep) := by
    simp [openFile_of_usual, OpenFlags.usual, openPath, OpenFlags.follows, h.target', hwrite]
  have hgetIn : s.pair.replica.1.get p.pathIn = some (.file p.modeIn x.source') :=
    resolve_sound h.source'
  have hgetOut : s.pair.replica.1.get p.pathOut = some (.file p.modeOut x.target') :=
    resolve_sound h.target'
  unfold Pair.mirrored at hmirrored
  rw [show (c.during t).mirror = c.mirror from rfl, hasks] at hmirrored
  -- What the switch of `Mirror.Mirror` does decides what it returns.
  have hresult : ∀ {e : Edit} {err' : Option String},
      c.peerMirror.copyFileRange (copying c.peerProc t.there) s.pair.replica.1
        (copyMetadata p.rfsInFile p.rfsOutFile s.offIn s.offOut s.len) = (e, err') →
      replica.1 = e.apply s.pair.replica.1 ∧ err = err' := by
    intro e err' hcopy
    have hchange : c.peerMirror.change (copying c.peerProc t.there) s.pair.replica.1
        (copyRequest p.rfsInFile p.rfsOutFile s.offIn s.offOut s.len) = .ok (e, err') :=
      congrArg Except.ok hcopy
    have hmirror := (Mirror.mirror_of_ok hchange).symm.trans hmirrored
    simp only [Except.ok.injEq, Prod.mk.injEq] at hmirror
    exact ⟨congrArg Subtype.val hmirror.1.symm, hmirror.2.symm⟩
  unfold Mirror.copyFileRange at hresult
  simp only [copyMetadata, hopenIn, hopenOut] at hresult
  constructor
  · intro hno
    simp only [hno, if_true] at hresult
    simp [(hresult rfl).2]
  · intro hyes
    simp only [hyes, Bool.true_eq_false, if_false, Library.Posix.copyFileRange, hgetIn, hgetOut,
      copyContent, hcount, Except.map, edited, written] at hresult
    obtain ⟨hreplica, herr⟩ := hresult rfl
    refine ⟨hreplica, ?_⟩
    rw [herr]
    split <;> simp_all

end Calls

section Turn
variable {c : Setup} {k : Copier} {p : Places} {s s₁ : Copying} {x : Contents} {t : Turn}

/-- One turn, seen from its result: the call here, the request there, and the offsets that the
application goes on with. -/
theorem Copying.step_cases (hstep : s.step c k t = some s₁) :
    s.done = false ∧ s.pair.agrees (c.during t) (k.call s) = true ∧ ∃ err,
      s.pair.mount.call c.mirror (c.during t).proc c.loopback none (k.call s) =
        some (.ok (s₁.pair.mount, none)) ∧
      s.pair.mirrored (c.during t) (k.call s) = .ok (s₁.pair.replica, err) ∧
      s₁.errors = s.errors ++ err.toList ∧
      s₁.offIn = s.offIn + (k.returned (c.during t).proc s).toUInt64 ∧
      s₁.offOut = s.offOut + (k.returned (c.during t).proc s).toUInt64 ∧
      s₁.len = s.len - (k.returned (c.during t).proc s).toUInt64 ∧
      s₁.stopped = decide ((k.returned (c.during t).proc s).toUInt64 = 0) := by
  unfold Copying.step at hstep
  split at hstep
  · cases hstep
  rename_i hgo
  -- The application goes on as long as it is not done and the call is permitted.
  simp only [Bool.or_eq_true, Bool.not_eq_true', not_or, Bool.not_eq_false,
    Bool.not_eq_true] at hgo
  refine ⟨hgo.1, hgo.2, ?_⟩
  split at hstep
  · rename_i mount replica err hcall hmirrored
    cases hstep
    exact ⟨err, hcall, hmirrored, rfl, rfl, rfl, rfl, rfl⟩
  · cases hstep

/-- What a turn does, from the number of bytes that are there to copy. -/
structure TurnSpec (c : Setup) (p : Places) (s : Copying) (x : Contents) (t : Turn)
    (s₁ : Copying) (a : Nat) : Prop where
  pos : 0 < s.len.toNat
  clear : Clear (p.fileIn.ref = p.fileOut.ref) s.offIn s.offOut s.len a
  mount : s₁.pair.mount = { s.pair.mount with
    disk := s.pair.mount.disk.setContent
      (overwrite x.target ((x.source.drop s.offIn.toNat).take (t.here.count a)) s.offOut.toNat)
      p.fileOut.ref }
  offIn : s₁.offIn.toNat = s.offIn.toNat + t.here.count a % 2 ^ 32
  offOut : s₁.offOut.toNat = s.offOut.toNat + t.here.count a % 2 ^ 32
  len : s₁.len.toNat = s.len.toNat - t.here.count a % 2 ^ 32
  stopped : s₁.stopped = decide (t.here.count a % 2 ^ 32 = 0)
  unread : c.peerProc.may mayRead p.modeIn = false → s₁.errors ≠ []
  replica : c.peerProc.may mayRead p.modeIn = true →
    s₁.pair.replica.1 = s.pair.replica.1.put p.pathOut (.file p.modeOut
      (overwrite x.target' ((x.source'.drop s.offIn.toNat).take (t.there.count a))
        s.offOut.toNat))
  exact : c.peerProc.may mayRead p.modeIn = true →
    (t.there.count a : Int) = s.len.toInt64.toInt → s₁.errors = s.errors
  short : (t.there.count a : Int) ≠ s.len.toInt64.toInt → s₁.errors ≠ []

/-- Every turn is like this. The two sides may copy different numbers of bytes, which is where they
can part. `hrest` says that the bytes to be copied are the same on both sides. The rest of the
sources and the targets may differ. -/
theorem Placed.turn (h : Placed c k p s.pair x) (hrest : s.rest x.source = s.rest x.source')
    (hstep : s.step c k t = some s₁) :
    TurnSpec c p s x t s₁ (available x.source.length s.offIn s.len) := by
  obtain ⟨hdone, hagrees, err, hcall, hmirrored, herrors, hin, hout, hlen, hstopped⟩ :=
    Copying.step_cases hstep
  obtain ⟨n, hcount, hmount, hreturned, hasks⟩ := h.call_here hcall
  obtain ⟨hclear, hn⟩ := copyCount_eq_ok_iff.mp hcount
  -- The sources have the same bytes to copy, so the call goes through on the other side as well.
  have havail : available x.source.length s.offIn s.len =
      available x.source'.length s.offIn s.len := by
    rw [← Copying.length_rest, ← Copying.length_rest, hrest]
  have hcount' : copyCount (copying c.peerProc t.there) x.source'.length (p.pathIn = p.pathOut)
      s.offIn.toInt64 s.offOut.toInt64 s.len.toInt64 =
      .ok (t.there.count (available x.source.length s.offIn s.len)) := by
    refine copyCount_eq_ok_iff.mpr ⟨?_, by rw [havail]; rfl⟩
    rw [← havail]
    simpa [← h.same] using hclear
  have hwritable := h.writable_of_agrees hagrees
  obtain ⟨hunread, hread⟩ := h.mirror_there hasks hwritable hcount' hmirrored
  obtain rfl : n = t.here.count (available x.source.length s.offIn s.len) := hn
  have hoffIn : s.offIn.toInt64.toInt.toNat = s.offIn.toNat := by
    rw [toInt_toInt64, if_pos hclear.read, Int.toNat_natCast]
  have hoffOut : s.offOut.toInt64.toInt.toNat = s.offOut.toNat := by
    rw [toInt_toInt64, if_pos hclear.write, Int.toNat_natCast]
  rw [hoffIn, hoffOut] at hmount hread
  have hle : t.here.count (available x.source.length s.offIn s.len) ≤ s.len.toNat :=
    (t.here.count_le _).trans (Nat.min_le_left _ _)
  have hadvance : (k.returned (c.during t).proc s).toUInt64.toNat =
      t.here.count (available x.source.length s.offIn s.len) % 2 ^ 32 := by
    rw [hreturned]
    simp
  have hmod := Nat.mod_le (t.here.count (available x.source.length s.offIn s.len)) (2 ^ 32)
  have hreadEnd := hclear.readEnd
  have hwriteEnd := hclear.writeEnd
  refine ⟨?_, by simpa using hclear, hmount, ?_, ?_, ?_, ?_, ?_, fun hyes => (hread hyes).1, ?_, ?_⟩
  · simp only [Copying.done, Bool.or_eq_false_iff, decide_eq_false_iff_not] at hdone
    exact Nat.pos_of_ne_zero fun hzero => hdone.2 (UInt64.toNat_inj.mp hzero)
  · rw [hin, UInt64.toNat_add, hadvance, Nat.mod_eq_of_lt (by omega)]
  · rw [hout, UInt64.toNat_add, hadvance, Nat.mod_eq_of_lt (by omega)]
  · rw [hlen, UInt64.toNat_sub_of_le _ _ (UInt64.le_iff_toNat_le.mpr (by omega)), hadvance]
  · rw [hstopped, ← hadvance]
    simp [← UInt64.toNat_inj]
  · intro hno
    rw [herrors]
    simpa using fun _ => hunread hno
  · intro hyes hwhole
    rw [herrors, (hread hyes).2.mpr hwhole]
    simp
  · intro hshort
    rw [herrors]
    cases hyes : c.peerProc.may mayRead p.modeIn with
    | false => simpa using fun _ => hunread hyes
    | true => simpa using fun _ => fun hnone => hshort ((hread hyes).2.mp hnone)

/-- The condition of a turn on the other side: the source can be read, and the kernel copies all of
the length at once. -/
theorem Placed.exact_iff (h : Placed c k p s.pair x) :
    s.exact c k t = true ↔ c.peerProc.may mayRead p.modeIn = true ∧ s.len.toNat < 2 ^ 63 ∧
      s.offIn.toNat + s.len.toNat ≤ x.source.length ∧
      t.there.count s.len.toNat = s.len.toNat := by
  obtain ⟨hin, -, hin', -⟩ := h.files
  simp [Copying.exact, hin, hin', and_assoc]

/-- The files stay in their places when the targets are written to. When source and target are one
file, the write changes the source as well, and on both sides or on neither. -/
theorem Placed.write (h : Placed c k p s.pair x) {target target' : List UInt8}
    (hmount : s₁.pair.mount = { s.pair.mount with
      disk := s.pair.mount.disk.setContent target p.fileOut.ref })
    (hreplica : s₁.pair.replica.1 = s.pair.replica.1.put p.pathOut (.file p.modeOut target')) :
    Placed c k p s₁.pair
      { source := if p.fileIn.ref = p.fileOut.ref then target else x.source
        target
        source' := if p.pathIn = p.pathOut then target' else x.source'
        target' } where
  handleIn := by
    rw [hmount]
    exact h.handleIn
  handleOut := by
    rw [hmount]
    exact h.handleOut
  fileIn := by simpa [hmount] using h.fileIn
  fileOut := by simpa [hmount] using h.fileOut
  source := by
    rw [hmount]
    -- One file for both ends of the copy, or two.
    by_cases href : p.fileIn.ref = p.fileOut.ref
    · rw [if_pos href, href]
      exact Disk.content?_setContent h.target target
    · rw [if_neg href]
      exact (Disk.content?_setContent_of_ne href target).trans h.source
  target := by
    rw [hmount]
    exact Disk.content?_setContent h.target target
  source' := by
    rw [hreplica]
    exact resolve_put_content h.source' (resolve_sound h.target') target'
  target' := by
    rw [hreplica]
    exact resolve_put_file h.target' target'
  same := h.same

/-- A turn in which the other peer copies what is left: it has then everything, and what is left to
do here gives the same. `Aligned` is kept, which says that the targets are equal once the rest is
copied here. -/
theorem Placed.advance (h : Placed c k p s.pair x) (ha : Aligned s x)
    (hstep : s.step c k t = some s₁) (hexact : s.exact c k t = true) :
    s₁.errors = s.errors ∧ s₁.stopped = decide (t.here.count s.len.toNat % 2 ^ 32 = 0) ∧
      ∃ x₁, Placed c k p s₁.pair x₁ ∧ Aligned s₁ x₁ ∧
        x₁.target = overwrite x.target ((s.rest x.source).take (t.here.count s.len.toNat))
          s.offOut.toNat ∧
        x₁.target' = overwrite x.target' (s.rest x.source') s.offOut.toNat := by
  obtain ⟨hread, hlen, hinside, hwhole⟩ := h.exact_iff.mp hexact
  have hturn := h.turn ha.rest hstep
  have havail : available x.source.length s.offIn s.len = s.len.toNat := by
    unfold available
    omega
  rw [havail] at hturn
  have hpos := hturn.pos
  have hinside' : s.offIn.toNat + s.len.toNat ≤ x.source'.length := by
    have hlength := congrArg List.length ha.rest
    rw [Copying.length_rest, Copying.length_rest, havail, available] at hlength
    omega
  have hle := t.here.count_le s.len.toNat
  have hmod := Nat.mod_le (t.here.count s.len.toNat) (2 ^ 32)
  have hpart : (x.source.drop s.offIn.toNat).take (t.here.count s.len.toNat) =
      (s.rest x.source).take (t.here.count s.len.toNat) := by
    rw [Copying.rest, List.take_take, Nat.min_eq_left hle]
  have hall : s.rest x.source' = (s.rest x.source').take s.len.toNat := by
    rw [Copying.rest, List.take_take, Nat.min_self]
  have hmount := hturn.mount
  have hreplica := hturn.replica hread
  rw [hpart] at hmount
  rw [hwhole, ← Copying.rest] at hreplica
  -- One lemma about the bytes, for each of the two sides.
  obtain ⟨hrest, hfull⟩ := advance_bytes (p.fileIn.ref = p.fileOut.ref) h.source_eq hinside
    hturn.clear.apart hmod hle hturn.offIn hturn.offOut hturn.len rfl
  obtain ⟨hrest', hfull'⟩ := advance_bytes (p.pathIn = p.pathOut) h.source'_eq hinside'
    (fun hpath => hturn.clear.apart (h.same.mpr hpath)) (hmod.trans hle) (Nat.le_refl _)
    hturn.offIn hturn.offOut hturn.len rfl
  rw [← hall] at hrest' hfull'
  refine ⟨hturn.exact hread ?_, hturn.stopped, _, h.write hmount hreplica, ⟨?_, ?_⟩, rfl, rfl⟩
  · rw [hwhole, toInt_toInt64, if_pos hlen]
  · rw [hrest, hrest', ha.rest]
  · rw [hrest, hrest', hfull, hfull', ha.full]

/-- A turn in which it does not is an error of `Mirror.Mirror`, because the number is not the length
of the request. -/
theorem Placed.error_of_not_exact (h : Placed c k p s.pair x) (hrest : s.rest x.source =
    s.rest x.source') (hstep : s.step c k t = some s₁) (hexact : s.exact c k t = false) :
    s₁.errors ≠ [] := by
  have hturn := h.turn hrest hstep
  have hpos := hturn.pos
  cases hread : c.peerProc.may mayRead p.modeIn with
  | false => exact hturn.unread hread
  | true =>
    refine hturn.short fun hwhole => ?_
    have hle := t.there.count_le (available x.source.length s.offIn s.len)
    have hlt := s.len.toNat_lt
    -- The number is the length, so the length is not negative and the range is in the source.
    rw [toInt_toInt64] at hwhole
    have hlen : s.len.toNat < 2 ^ 63 := by
      by_contra hno
      rw [if_neg hno] at hwhole
      omega
    rw [if_pos hlen] at hwhole
    have havail : available x.source.length s.offIn s.len = s.len.toNat := by
      unfold available at hle hwhole ⊢
      omega
    rw [havail] at hwhole
    have hyes : s.exact c k t = true := by
      refine h.exact_iff.mpr ⟨hread, hlen, ?_, by omega⟩
      unfold available at havail
      omega
    rw [hyes] at hexact
    cases hexact

end Turn

section Loop
variable {c : Setup} {k : Copier} {p : Places}

/-- The errors stay. So a loop without errors at its end had none in any of its turns. -/
theorem Copying.errors_of_run {s s' : Copying} {turns : List Turn}
    (hrun : run (Copying.step c k) s turns = some s') (herrors : s.errors ≠ []) :
    s'.errors ≠ [] := by
  refine run_invariant (I := fun u => u.errors ≠ []) ?_ hrun herrors
  intro u t u' hstep hu
  obtain ⟨-, -, err, -, -, herr, -⟩ := Copying.step_cases hstep
  rw [herr]
  simp [hu]

/-- There is no turn after the end. The loop stops when nothing is left, or after a turn of 0
bytes. -/
theorem Copying.eq_of_done {s s' : Copying} {turns : List Turn} (hdone : s.done = true)
    (hrun : run (Copying.step c k) s turns = some s') : turns = [] ∧ s' = s := by
  cases turns with
  | nil =>
    cases hrun
    exact ⟨rfl, rfl⟩
  | cons t turns =>
    obtain ⟨s₁, hstep, -⟩ := run_cons_eq_some.mp hrun
    rw [(Copying.step_cases hstep).1] at hdone
    cases hdone

/-- The contents of the targets, in terms of what the handles lead to. The result speaks of the
handles only. -/
theorem Placed.contents_eq_iff {s : Copying} {x : Contents} (h : Placed c k p s.pair x) :
    s.pair.contentHere k.fhOut = s.pair.contentThere c k.fhOut ↔ x.target = x.target' := by
  obtain ⟨-, hout, -, hout'⟩ := h.files
  simp [Pair.contentHere, Pair.contentThere, hout, hout']

/-- Whether the loop ends too early here: the number is truncated to 32 bits, and 0 ends the loop
even if bytes are left. -/
theorem Placed.goesOn_iff {s : Copying} {x : Contents} {t : Turn} (h : Placed c k p s.pair x) :
    s.goesOn k t = true ↔ t.here.count s.len.toNat % 2 ^ 32 ≠ 0 ∨
      overwrite x.target ((s.rest x.source).take (t.here.count s.len.toNat)) s.offOut.toNat =
        overwrite x.target (s.rest x.source) s.offOut.toNat := by
  obtain ⟨hin, hout, -⟩ := h.files
  simp [Copying.goesOn, hin, hout]

/-- The whole loop, from any point of it. The proof is by induction on the turns, with `Aligned` as
its invariant. A turn that does not fit leaves an error or ends the loop too early, and neither can
be made good later, so the conditions on the turns are necessary as well. -/
theorem Placed.loop {s s' : Copying} {x : Contents} {turns : List Turn}
    (h : Placed c k p s.pair x) (ha : Aligned s x) (herrors : s.errors = [])
    (hstopped : s.stopped = false) (hrun : run (Copying.step c k) s turns = some s')
    (hdone : s'.done = true) :
    (s'.pair.contentHere k.fhOut = s'.pair.contentThere c k.fhOut ∧ s'.errors = []) ↔
      run (restrict (Copying.step c k) (Copying.fits c k)) s turns = some s' := by
  induction turns generalizing s x with
  | nil =>
    cases hrun
    -- Nothing is left, so the targets are what they are once it is copied.
    have hlen : s'.len.toNat = 0 := by
      simp only [Copying.done, hstopped, Bool.false_or, decide_eq_true_eq] at hdone
      rw [hdone]
      rfl
    have hfull := ha.full
    simp only [Copying.rest, hlen, List.take_zero, overwrite_nil] at hfull
    simp [h.contents_eq_iff, hfull, herrors, run]
  | cons t turns ih =>
    obtain ⟨s₁, hstep, hrest⟩ := run_cons_eq_some.mp hrun
    cases hexact : s.exact c k t with
    | false =>
      have hfits : s.fits c k t = false := by simp [Copying.fits, hexact]
      have herr := Copying.errors_of_run hrest (h.error_of_not_exact ha.rest hstep hexact)
      refine iff_of_false (fun hok => herr hok.2) ?_
      simp [run, restrict, hfits]
    | true =>
      obtain ⟨herr₁, hstop₁, x₁, hp₁, ha₁, htarget, htarget'⟩ := h.advance ha hstep hexact
      have hfits : s.fits c k t = s.goesOn k t := by simp [Copying.fits, hexact]
      by_cases hzero : t.here.count s.len.toNat % 2 ^ 32 = 0
      · -- The call returns 0, and this is the end.
        have hend : s₁.done = true := by
          rw [Copying.done, hstop₁, decide_eq_true hzero, Bool.true_or]
        obtain ⟨rfl, rfl⟩ := Copying.eq_of_done hend hrest
        have hgoes : s'.pair.contentHere k.fhOut = s'.pair.contentThere c k.fhOut ↔
            s.goesOn k t = true := by
          rw [hp₁.contents_eq_iff, h.goesOn_iff, htarget, htarget', ← ha.full]
          exact ⟨.inr, fun hor => hor.resolve_left (not_not_intro hzero)⟩
        rw [hgoes, herr₁, herrors, ← hfits]
        simp [restrict_eq_some, hstep, run]
      · have hgoes : s.fits c k t = true := by
          rw [hfits]
          exact h.goesOn_iff.mpr (.inl hzero)
        have hstop : s₁.stopped = false := by rw [hstop₁, decide_eq_false hzero]
        rw [ih hp₁ ha₁ (herr₁.trans herrors) hstop hrest]
        simp [run_cons_eq_some, restrict_eq_some, hgoes, hstep]

end Loop

/-- From equal sources and equal targets, which are one file on both sides or on neither: when an
application copies any range by calls that are permitted, until it is done or 0 is returned, then
the targets are equal and every `Mirror.Mirror` has returned nil, exactly when in each turn the
range lies in a source that the other peer can read, the other peer copies all of it in one call,
and the call here does not return 0 for a number of bytes that is not 0. -/
theorem copies_converge_iff (c : Setup) (k : Copier) (s : Copying) (source content : List UInt8)
    (fileIn fileOut : OpenFile) (pathIn pathOut : Path) (modeIn modeOut : Mode)
    (hin : s.pair.fileHere k.fhIn = some (fileIn, source))
    (hout : s.pair.fileHere k.fhOut = some (fileOut, content))
    (hin' : s.pair.fileThere c k.fhIn = some (pathIn, modeIn, source))
    (hout' : s.pair.fileThere c k.fhOut = some (pathOut, modeOut, content))
    (hsame : fileIn.ref = fileOut.ref ↔ pathIn = pathOut) (herrors : s.errors = [])
    (hstopped : s.stopped = false) (turns : List Turn) (s' : Copying)
    (hrun : run (Copying.step c k) s turns = some s') (hdone : s'.done = true) :
    (s'.pair.contentHere k.fhOut = s'.pair.contentThere c k.fhOut ∧ s'.errors = []) ↔
      run (restrict (Copying.step c k) (Copying.fits c k)) s turns = some s' := by
  obtain ⟨f, hf, hfile, hcontent⟩ := Pair.fileHere_eq_some.mp hin
  obtain ⟨g, hg, hfile', hcontent'⟩ := Pair.fileHere_eq_some.mp hout
  obtain ⟨f', hf', hresolve⟩ := Pair.fileThere_eq_some.mp hin'
  obtain ⟨g', hg', hresolve'⟩ := Pair.fileThere_eq_some.mp hout'
  -- Both sides find their files from the same handle.
  obtain rfl : f = f' := Option.some.inj (hf.symm.trans hf')
  obtain rfl : g = g' := Option.some.inj (hg.symm.trans hg')
  have hplaced : Placed c k ⟨f, g, fileIn, fileOut, pathIn, pathOut, modeIn, modeOut⟩ s.pair
      ⟨source, content, source, content⟩ :=
    ⟨hf, hg, hfile, hfile', hcontent, hcontent', hresolve, hresolve', hsame⟩
  exact hplaced.loop ⟨rfl, rfl⟩ herrors hstopped hrun hdone

/-- A kernel that copies everything at once. -/
def allAtOnce : Copies := ⟨id, fun _ => Nat.le_refl _, fun _ h => h⟩

/-- A kernel that copies one byte at a time. -/
def oneAtATime : Copies :=
  ⟨fun n => min n 1, fun n => Nat.min_le_left n 1, fun _ h => Nat.lt_min.mpr ⟨h, Nat.one_pos⟩⟩

/-- The files `a` with two bytes and `b` without any. -/
def copyTree : Tree :=
  ((rootTree.add [] "m" (.dir 0o755)).add ["m"] "a" (.file 0o644 [1, 2])).add ["m"] "b"
    (.file 0o644 [])

/-- Both files are open, `a` for reading and `b` for writing. -/
def copyPair : Pair where
  mount :=
    { disk :=
        { tree := copyTree
          files := [some ⟨.named ["m", "a"], true, false⟩, some ⟨.named ["m", "b"], false, true⟩] }
      handles := [some ⟨"a", 0⟩, some ⟨"b", 1⟩] }
  replica := copyTree

/-- The handles of the two files. -/
def copier : Copier := { path := "", fhIn := 0, fhOut := 1 }

/-- A copy of both bytes, one at a time here and at once there. The number of turns does not have to
be the same. -/
theorem copies_converge_whole :
    ∃ s', run (Copying.step someSetup copier) ⟨copyPair, 0, 0, 2, false, []⟩
        [⟨oneAtATime, allAtOnce⟩, ⟨oneAtATime, allAtOnce⟩] = some s' ∧
      s'.pair.contentHere 1 = s'.pair.contentThere someSetup 1 ∧ s'.errors = [] := by
  have hobs : (run (restrict (Copying.step someSetup copier) (Copying.fits someSetup copier))
      ⟨copyPair, 0, 0, 2, false, []⟩
      [⟨oneAtATime, allAtOnce⟩, ⟨oneAtATime, allAtOnce⟩]).any Copying.done = true := by decide
  rw [Option.any_eq_true] at hobs
  obtain ⟨s', hrun, hdone⟩ := hobs
  have hrun' := run_of_restrict hrun
  exact ⟨s', hrun', (copies_converge_iff someSetup copier _ [1, 2] []
    ⟨.named ["m", "a"], true, false⟩
    ⟨.named ["m", "b"], false, true⟩ ["m", "a"] ["m", "b"] 0o644 0o644 (by decide) (by decide)
    (by decide) (by decide) (by decide) rfl rfl _ s' hrun' hdone).mpr hrun⟩

/-- Both bytes at once here, one of them there. The application is done, the other peer has one
byte, and `Mirror.Mirror` has failed. -/
theorem short_copy_diverges :
    ∃ s', run (Copying.step someSetup copier) ⟨copyPair, 0, 0, 2, false, []⟩
        [⟨allAtOnce, oneAtATime⟩] = some s' ∧ s'.done = true ∧
      s'.pair.contentHere 1 = some [1, 2] ∧ s'.pair.contentThere someSetup 1 = some [1] ∧
      s'.errors.length = 1 := by
  have hobs : (run (Copying.step someSetup copier) ⟨copyPair, 0, 0, 2, false, []⟩
      [⟨allAtOnce, oneAtATime⟩]).any (fun s' => s'.done = true ∧
        s'.pair.contentHere 1 = some [1, 2] ∧ s'.pair.contentThere someSetup 1 = some [1] ∧
        s'.errors.length = 1) = true := by decide
  simpa only [Option.any_eq_true, decide_eq_true_eq] using hobs

end ReplicatedFs.Rfs
