import ReplicatedFs.Library.Posix.Os
import ReplicatedFs.Protobuf.Message

/-!
# `ReplicatedFs.Mirror.Mirror`: the mirror directory

`Mirror.Mirror` of `mirror/mirror.go`, over a directory tree with the `os` functions of Go.
`Mirror.change` is what the switch of `Mirror.Mirror` does to the tree, with the text of the error
it returns, and `Mirror.mirror` is the method itself. `Mirror.Consult` is in `Mirror/Consult.lean`.

* `Mirror.change_allowed`: a request leads from a tree to a tree.
* `Mirror.normal_path`: a path of the mirror has no special names.
-/

set_option autoImplicit false

namespace ReplicatedFs

open Library.Posix Protobuf

/-- `Mirror`. Its directory is an absolute path without special names. -/
structure Mirror where
  dir : Path
  normal : Normal dir

/-- One name of `filepath.Clean` on a rooted path. -/
def cleanStep (p : Path) (name : Name) : Path :=
  if name = "." then p else if name = ".." then p.dropLast else p ++ [name]

/-- `Mirror.path`. `filepath.Join` works on the text only, so `..` may lead out of the
directory. -/
def Mirror.path (m : Mirror) (relPath : String) : Path :=
  (components relPath).foldl cleanStep m.dir

/-- Each step of `path.Clean` keeps the path free of `.` and `..`. -/
theorem normal_cleanStep {p : Path} (h : Normal p) (name : Name) :
    Normal (cleanStep p name) := by
  unfold cleanStep
  split
  · exact h
  split
  · exact fun n hn => h n (List.dropLast_subset p hn)
  · intro n hn
    rcases List.mem_append.mp hn with hn | hn
    · exact h n hn
    · obtain rfl := List.mem_singleton.mp hn
      exact ⟨‹_›, ‹_›⟩

/-- No path of the mirror has a special name, because `filepath.Join` cleans it. So the walk of the
kernel goes down name by name. -/
theorem Mirror.normal_path (m : Mirror) (relPath : String) : Normal (m.path relPath) := by
  unfold Mirror.path
  -- The fold keeps the names normal, from any normal path.
  generalize components relPath = names
  obtain ⟨dir, hdir⟩ := m
  induction names generalizing dir with
  | nil => exact hdir
  | cons name names ih => exact ih _ (normal_cleanStep hdir name)

/-- What a function did to the tree, with the text of its error. -/
def outcome : Except OsError Edit → Edit × Option String
  | .ok e => (e, none)
  | .error err => (.keep, some err.text)

section Mirror
variable (m : Mirror) (proc : Process) (s : Store)

/-- `WriteAt` on the file that `os.OpenFile` has just made or truncated. -/
def writeAt (p : Path) (content : List UInt8) (offset : Int64) : Edit → Edit × Option String
  | .put q (.file mode old) =>
    if offset < 0 then
      (.put q (.file mode old), some ("writeat " ++ pathText p ++ ": negative offset"))
    else (.put q (.file mode (overwrite old content offset.toInt.toNat)), none)
  | e => (e, none)

/-- The case of `WRITE`. -/
def Mirror.write (md : Metadata) (content : List UInt8) : Edit × Option String :=
  let p := m.path md.relativePath
  match osOpenFile proc s { write := true, create := true, trunc := true } 0 p with
  | .error err => (.keep, some err.text)
  | .ok (_, e) => writeAt p content md.writeOffset e

/-- The number of bytes that `unix.CopyFileRange` returns, `-1` for an error. -/
def written : Except Errno (Nat × Edit) → Int
  | .error _ => -1
  | .ok (n, _) => n

/-- The edit of a call. -/
def edited : Except Errno (Nat × Edit) → Edit
  | .error _ => .keep
  | .ok (_, e) => e

/-- The case of `COPY_FILE_RANGE`. The error of `unix.CopyFileRange` is not looked at, only the
number it returns. -/
def Mirror.copyFileRange (md : Metadata) : Edit × Option String :=
  match openFile proc s { read := true } 0 (m.path md.relativePath) with
  | .error err => (.keep, some err.text)
  | .ok (src, _) =>
    match openFile proc s { write := true } 0 (m.path md.newRelativePath) with
    | .error err => (.keep, some err.text)
    | .ok (dst, _) =>
      let result :=
        Library.Posix.copyFileRange proc s src dst md.readOffset md.writeOffset md.writeLen
      (edited result,
        if written result = md.writeLen.toInt then none
        else some ("should've written " ++ toString md.writeLen.toInt ++ " but only wrote " ++
          toString (written result) ++ " to a file"))

/-- The switch of `Mirror.Mirror`: what it does to the tree, and the error that it returns. A type
that is not declared ends in `log.Panic`, and a request without metadata in a nil dereference. -/
def Mirror.change (r : Request) : Except Panic (Edit × Option String) :=
  match r.type, r.metadata with
  | .unrecognized _, _ => .error .logPanic
  | _, none => .error .nilDereference
  | .create, some md =>
    .ok (outcome ((osOpenFile proc s { read := true, create := true } md.mode
      (m.path md.relativePath)).map Prod.snd))
  -- A hard link is mirrored as a symbolic one.
  | .symlink, some md | .link, some md =>
    .ok (outcome (osSymlink proc s (pathText (m.path md.relativePath))
      (m.path md.newRelativePath)))
  | .mkdir, some md => .ok (outcome (osMkdir proc s md.mode (m.path md.relativePath)))
  | .rename, some md =>
    .ok (outcome (osRename proc s (m.path md.relativePath) (m.path md.newRelativePath)))
  | .rmdir, some md | .unlink, some md =>
    .ok (outcome (osRemove proc s (m.path md.relativePath)))
  | .setattr, some md => .ok (outcome (osChmod proc s md.mode (m.path md.relativePath)))
  | .write, some md => .ok (m.write proc s md (r.content.getD []))
  | .copyFileRange, some md => .ok (m.copyFileRange proc s md)

end Mirror

section Allowed
variable {m : Mirror} {proc : Process} {s : Store} (hs : s.IsTree)

/-- A function leaves the tree as it is when it fails, and this is an allowed edit as well. -/
theorem outcome_allowed {x : Except OsError Edit} (h : ∀ e, x = .ok e → e.Allowed s) :
    (outcome x).1.Allowed s := by
  cases x with
  | error err => trivial
  | ok e => exact h e rfl

/-- The content of a new file does not matter for the shape of the tree, nor does a write that
fails. -/
theorem writeAt_allowed {p : Path} {content : List UInt8} {offset : Int64} {e : Edit}
    (h : e.Allowed s) : (writeAt p content offset e).1.Allowed s := by
  unfold writeAt
  split
  · split
    · exact h
    · simpa [Edit.Allowed] using h
  · exact h

include hs

/-- `Mirror` writes to a file that it opened for this, and the content of a file may be any. -/
theorem Mirror.write_allowed (md : Metadata) (content : List UInt8) :
    (m.write proc s md content).1.Allowed s := by
  unfold Mirror.write
  dsimp only
  split
  · trivial
  · rename_i q e h
    exact writeAt_allowed (openFile_allowed hs (ok_of_mapError h))

/-- The target of a copy is a file that was opened, so the edit is one of its content. -/
theorem Mirror.copyFileRange_allowed (md : Metadata) :
    (m.copyFileRange proc s md).1.Allowed s := by
  unfold Mirror.copyFileRange
  split
  · trivial
  split
  · trivial
  rename_i src _ _ _ dst _ _
  dsimp only
  cases h : Library.Posix.copyFileRange proc s src dst md.readOffset md.writeOffset
      md.writeLen with
  | error err => trivial
  | ok result => exact Library.Posix.copyFileRange_allowed hs h

/-- A request makes an allowed edit, so that what it leaves is a tree again. The tree of the model
carries the proof of its shape, and without this lemma `Mirror.Mirror` could not return one. -/
theorem Mirror.change_allowed {r : Request} {e : Edit} {err : Option String}
    (h : m.change proc s r = .ok (e, err)) : e.Allowed s := by
  unfold Mirror.change at h
  split at h
  case h_1 | h_2 => cases h
  all_goals
    obtain rfl := congrArg Prod.fst (Except.ok.inj h)
  case h_3 =>
    refine outcome_allowed fun e he => ?_
    obtain ⟨q, hq⟩ := osOpenFile_snd_eq_ok he
    exact openFile_allowed hs hq
  -- The cases of the switch that make an entry.
  case h_4 | h_5 =>
    refine outcome_allowed fun e he => ?_
    exact makeEntry_allowed hs (symlink_eq_ok (ok_of_mapError he))
  case h_6 =>
    exact outcome_allowed fun e he => makeEntry_allowed hs (ok_of_mapError he)
  case h_7 => exact outcome_allowed fun e he => osRename_allowed hs he
  case h_8 | h_9 => exact outcome_allowed fun e he => osRemove_allowed hs he
  case h_10 =>
    exact outcome_allowed fun e he => chmod_allowed hs (ok_of_mapError he)
  case h_11 => exact Mirror.write_allowed hs _ _
  case h_12 => exact Mirror.copyFileRange_allowed hs _

end Allowed

/-- `Mirror.Mirror`, with the tree it leaves and the text of the error it returns. -/
def Mirror.mirror (m : Mirror) (proc : Process) (t : Tree) :
    Option Request → Except Panic (Tree × Option String)
  | none => .error .nilDereference
  | some r =>
    match h : m.change proc t.1 r with
    | .error p => .error p
    | .ok (e, err) => .ok (⟨e.apply t.1, (Mirror.change_allowed t.2 h).isTree t.2⟩, err)

/-- A request that makes `Mirror` crash has no result, and no later state. -/
theorem Mirror.mirror_of_error {m : Mirror} {proc : Process} {t : Tree} {r : Request}
    {p : Panic} (h : m.change proc t.1 r = .error p) :
    m.mirror proc t (some r) = .error p := by
  simp only [Mirror.mirror]
  split
  · rename_i h'
    cases h.symm.trans h'
    rfl
  · rename_i h'
    cases h.symm.trans h'

/-- Otherwise the result is the edit of the request, made on the tree. That it gives a tree again is
part of the statement. -/
theorem Mirror.mirror_of_ok {m : Mirror} {proc : Process} {t : Tree} {r : Request} {e : Edit}
    {err : Option String} (h : m.change proc t.1 r = .ok (e, err)) :
    m.mirror proc t (some r) =
      .ok (⟨e.apply t.1, (Mirror.change_allowed t.2 h).isTree t.2⟩, err) := by
  simp only [Mirror.mirror]
  split
  · rename_i h'
    cases h.symm.trans h'
  · rename_i h'
    cases h.symm.trans h'
    rfl

/-- A process that is not privileged. -/
def someProcess : Process := { umask := 0o022 }

/-- A mirror at `/m`. -/
def someMirror : Mirror := ⟨["m"], by decide⟩

/-- The files `a` and `b` in the mirror. -/
def someTree : Tree :=
  ((rootTree.add [] "m" (.dir 0o755)).add ["m"] "a" (.file 0o644 [1])).add ["m"] "b"
    (.file 0o644 [2])

end ReplicatedFs
