import ReplicatedFs.Library.Posix.Os

/-!
# `ReplicatedFs.Library.Posix.Success`: when a call succeeds

What a call needs of the tree, in terms of where its paths lead. `Absent` is what `stat` calls "does
not exist". The other predicates say that a call succeeds, each in one `iff`.

* `stat_eq_ok`, `stat_eq_enoent`, `osStat_looked`: the answers of `stat`.
* `makeEntry_ok_iff`, `openFile_create_ok_iff`, `openFile_write_ok_iff`, `osRemove_ok_iff`,
  `osRename_ok_iff`, `chmod_ok_iff`: the calls.
-/

set_option autoImplicit false

namespace Library.Posix

section Predicates
variable (proc : Process) (s : Store)

/-- Nothing is at the path, also when it leads through a link without a target. -/
def Absent (p : Path) : Prop :=
  resolve proc s true p = .error .enoent ∨
    ∃ parent name, resolve proc s true p = .ok (.missing parent name)

/-- An entry can be made at the path. -/
def Free (follow : Bool) (p : Path) : Prop :=
  ∃ parent name, resolve proc s follow p = .ok (.missing parent name) ∧
    proc.mayChange s parent = true

/-- The path is a file that the process may write to. -/
def Writable (p : Path) : Prop :=
  ∃ q mode content, resolve proc s true p = .ok (.existing q (.file mode content)) ∧
    proc.may mayWrite mode = true

/-- The entry at the path can be removed. A directory has to be empty. -/
def Removable (p : Path) : Prop :=
  ∃ q node, resolve proc s false p = .ok (.existing q node) ∧ q ≠ [] ∧
    proc.mayChange s q.dropLast = true ∧ (node.type = .directory → s.isLeaf q = true)

/-- A node can be moved to another path. -/
structure Movable (old new : Path) (node : Node) : Prop where
  notRoot : old ≠ []
  notBelow : ¬ old <+: new
  source : proc.mayChange s old.dropLast = true
  target : proc.mayChange s new.dropLast = true
  self : ∀ mode, node = .dir mode → old.dropLast = new.dropLast ∨ proc.may mayWrite mode = true

/-- `os.Rename` can move what is at one path to the other one: nothing is there, or something that
is not a directory and is not replaced by one, or both are the same. -/
def Renamable (old new : Path) : Prop :=
  ∃ o node, resolve proc s false old = .ok (.existing o node) ∧
    ((∃ parent name, resolve proc s false new = .ok (.missing parent name) ∧
        Movable proc s o (parent ++ [name]) node) ∨
      ∃ n node', resolve proc s false new = .ok (.existing n node') ∧
        (o = n ∧ (node'.type = .directory → new ≠ old) ∨
          o ≠ n ∧ node'.type ≠ .directory ∧ node.type ≠ .directory ∧ Movable proc s o n node))

end Predicates

section Success
variable {proc : Process} {s : Store} {p : Path}

/-- Turning the errors of a call into others does not change whether it succeeds. -/
theorem mapError_ok_iff {ε ε' α : Type} {f : ε → ε'} {call : Except ε α} :
    (∃ result, call.mapError f = .ok result) ↔ ∃ result, call = .ok result := by
  cases call <;> simp [Except.mapError]

/-- A call that only has one condition left succeeds exactly when this holds. -/
theorem ite_ok_iff {ε α : Type} {c : Prop} [Decidable c] {a : α} {e : ε} :
    (∃ r, (if c then Except.ok a else .error e) = .ok r) ↔ c := by
  split <;> simp_all

/-- A test that can refuse, as an equivalence. Most calls are a chain of these. -/
theorem ite_error_iff {ε α : Type} {c : Prop} [Decidable c] {a : α} {e : ε} :
    (∃ r, (if c then Except.error e else .ok a) = .ok r) ↔ ¬ c := by
  split <;> simp_all

/-- `stat` succeeds when the path leads to a node, links followed. -/
theorem stat_eq_ok {q : Path} {node : Node} :
    stat proc s p = .ok (q, node) ↔ resolve proc s true p = .ok (.existing q node) := by
  unfold stat statAt
  split <;> simp_all

/-- `lstat` succeeds when the path leads to a node, a link at its end included. -/
theorem lstat_eq_ok {q : Path} {node : Node} :
    lstat proc s p = .ok (q, node) ↔ resolve proc s false p = .ok (.existing q node) := by
  unfold lstat statAt
  split <;> simp_all

/-- `os.IsNotExist` of the error of `stat` is `Absent`. A link without a target is absent in this
sense, although it has an entry. -/
theorem stat_eq_enoent : stat proc s p = .error .enoent ↔ Absent proc s p := by
  unfold stat statAt Absent
  split <;> simp_all

/-- The answers of `os.Stat`. -/
inductive Looked (proc : Process) (s : Store) (p : Path) : Except OsError (Path × Node) → Prop
  | found (q : Path) (node : Node) (h : resolve proc s true p = .ok (.existing q node)) :
      Looked proc s p (.ok (q, node))
  | absent (err : OsError) (h : Absent proc s p) (herr : err.errno = .enoent) :
      Looked proc s p (.error err)
  | failed (err : OsError) (h : ¬ Absent proc s p)
      (hnone : ∀ q node, resolve proc s true p ≠ .ok (.existing q node))
      (herr : err.errno ≠ .enoent) : Looked proc s p (.error err)

/-- What `os.Stat` says, in one case for each kind of answer that `Mirror.Consult` tells apart:
there is something, there is nothing, or nobody can say. -/
theorem osStat_looked : Looked proc s p (osStat proc s p) := by
  unfold osStat
  cases h : stat proc s p with
  | ok found => exact .found found.1 found.2 (stat_eq_ok.mp h)
  | error e =>
    -- `os.IsNotExist` is true of `ENOENT` and of no other errno.
    by_cases henoent : e = .enoent
    · subst henoent
      exact .absent _ (stat_eq_enoent.mp h) rfl
    · refine .failed _ ?_ ?_ henoent
      · intro habsent
        rw [stat_eq_enoent.mpr habsent] at h
        cases h
        exact henoent rfl
      · intro q node hfound
        rw [stat_eq_ok.mpr hfound] at h
        cases h

/-- What is found is not absent. The answers of `stat` exclude each other. -/
theorem not_absent {q : Path} {node : Node} (h : resolve proc s true p = .ok (.existing q node)) :
    ¬ Absent proc s p := by
  unfold Absent
  simp [h]

/-- What is absent is not found, whatever one looks for. -/
theorem Absent.not_found (h : Absent proc s p) (q : Path) (node : Node) :
    resolve proc s true p ≠ .ok (.existing q node) :=
  fun hfound => not_absent hfound h

/-- A new entry can be made where the path is free. That the directory may be changed is part of
this. -/
theorem makeEntry_ok_iff {node : Node} :
    (∃ e, makeEntry proc s node p = .ok e) ↔ Free proc s false p := by
  unfold makeEntry Free
  split
  · simp_all
  · simp_all
  · rename_i parent name hf
    split <;> simp_all

/-- `open` with `O_CREAT` of a path that is absent makes a file, unless a link at the end leads to a
place where none can be made. -/
theorem openFile_create_ok_iff {mode : Mode} (h : Absent proc s p) :
    (∃ r, openFile proc s { read := true, create := true } mode p = .ok r) ↔
      Free proc s true p := by
  rw [openFile_of_usual rfl]
  unfold openPath Free
  rw [show OpenFlags.follows { read := true, create := true } = true from rfl]
  rcases h with herr | ⟨parent, name, hmiss⟩
  · simp [herr]
  · simp [-Prod.exists, hmiss, ite_ok_iff]

/-- `open` for writing, with `O_CREAT` and `O_TRUNC`: there is a file that may be written, or a
place where one can be made. -/
theorem openFile_write_ok_iff {mode : Mode} :
    (∃ r, openFile proc s { write := true, create := true, trunc := true } mode p = .ok r) ↔
      Writable proc s p ∨ Free proc s true p := by
  rw [openFile_of_usual rfl]
  unfold openPath Free Writable
  rw [show OpenFlags.follows { write := true, create := true, trunc := true } = true from rfl]
  cases resolve proc s true p with
  | error e => simp
  | ok found =>
    cases found with
    | existing q node => cases node <;> simp [-Prod.exists, ite_error_iff]
    | missing parent name => simp [-Prod.exists, ite_ok_iff]

/-- `os.OpenFile` succeeds like `open`. It adds the mode bits of Go and the wrapping of the
error. -/
theorem osOpenFile_ok_iff {flags : OpenFlags} {mode : UInt32} :
    (∃ e, (osOpenFile proc s flags mode p).map Prod.snd = .ok e) ↔
      ∃ r, openFile proc s flags (syscallMode mode) p = .ok r := by
  unfold osOpenFile
  cases openFile proc s flags (syscallMode mode) p with
  | error err => simp [Except.mapError, Except.map]
  | ok result => simp [Except.mapError, Except.map]

/-- The text of a path is not empty, so `symlink` does not fail with `ENOENT` on it. -/
theorem pathText_ne_empty : pathText p ≠ "" := by
  unfold pathText
  simp

/-- `os.Symlink` to an absolute path succeeds where the path is free. The target need not exist. -/
theorem osSymlink_ok_iff {target : Path} :
    (∃ e, osSymlink proc s (pathText target) p = .ok e) ↔ Free proc s false p := by
  unfold osSymlink symlink
  rw [mapError_ok_iff, if_neg pathText_ne_empty, makeEntry_ok_iff]

/-- A file that is opened so is empty, whether it was there or not. These are the flags of the
mirror for a `WRITE`. The truncation comes before the write, and it happens on every `WRITE`. -/
theorem openFile_write_put {mode : Mode} {q : Path} {e : Edit}
    (h : openFile proc s { write := true, create := true, trunc := true } mode p = .ok (q, e)) :
    ∃ m, e = .put q (.file m []) := by
  rw [openFile_of_usual rfl] at h
  unfold openPath at h
  split at h
  · cases h
  · rename_i q' node hf
    cases node with
    | file m content =>
      simp only [Bool.and_false, Bool.false_and, Bool.false_eq_true, if_false, if_true] at h
      split at h
      · cases h
      · cases h
        exact ⟨m, rfl⟩
    | _ => cases h
  · -- Nothing is there, and `O_CREAT` makes a file.
    simp only [Bool.not_true, Bool.false_eq_true, if_false] at h
    split at h
    · cases h
      exact ⟨_, rfl⟩
    · cases h

/-- What no mode makes a directory is of another type. The pattern matches of the calls give the
hypothesis in this form. -/
theorem Node.type_ne_directory {node : Node} (h : ∀ mode, node ≠ .dir mode) :
    node.type ≠ .directory := by
  cases node with
  | dir mode => exact absurd rfl (h mode)
  | _ => simp [Node.type]

/-- An entry can be removed when its directory can be changed. The root has no directory. -/
theorem removeEntry_ok_iff {q : Path} :
    (∃ e, removeEntry proc s q = .ok e) ↔ q ≠ [] ∧ proc.mayChange s q.dropLast = true := by
  unfold removeEntry
  split
  · simp_all
  · split <;> simp_all

/-- `unlink` removes everything but a directory, when the directory it is in may be changed. -/
theorem unlink_ok_iff :
    (∃ e, unlink proc s p = .ok e) ↔
      ∃ q node, resolve proc s false p = .ok (.existing q node) ∧ node.type ≠ .directory ∧
        q ≠ [] ∧ proc.mayChange s q.dropLast = true := by
  unfold unlink
  split
  · simp_all
  · simp_all
  · rename_i q mode hf
    simp [hf, Node.type]
  · rename_i q node hnot hf
    -- The pattern for a directory comes first in `unlink`, so this is something else.
    have htype := Node.type_ne_directory hnot
    rw [removeEntry_ok_iff]
    simp [hf, htype]

/-- `rmdir` removes an empty directory, when its parent may be changed. The root has no parent, and
it is not removed. A link to a directory is not one, because the last name is not followed. -/
theorem rmdir_ok_iff :
    (∃ e, rmdir proc s p = .ok e) ↔
      ∃ q node, resolve proc s false p = .ok (.existing q node) ∧ node.type = .directory ∧
        s.isLeaf q = true ∧ q ≠ [] ∧ proc.mayChange s q.dropLast = true := by
  unfold rmdir
  split
  · simp_all
  · simp_all
  · rename_i q mode hf
    split
    · -- An empty directory.
      rename_i hleaf
      rw [removeEntry_ok_iff]
      simp [hf, Node.type, hleaf]
    · rename_i hleaf
      simp [hf, hleaf]
  · rename_i q node hnot hf
    have htype := Node.type_ne_directory hnot
    simp [hf, htype]

/-- `os.Remove` tries `unlink` first and then `rmdir`, and it succeeds when one of them does. -/
theorem osRemove_ok_iff_or :
    (∃ e, osRemove proc s p = .ok e) ↔
      (∃ e, unlink proc s p = .ok e) ∨ ∃ e, rmdir proc s p = .ok e := by
  unfold osRemove
  cases unlink proc s p with
  | ok e => simp
  | error err => cases rmdir proc s p <;> simp

/-- `os.Remove` removes both: what is not a directory, and a directory that is empty. -/
theorem osRemove_ok_iff : (∃ e, osRemove proc s p = .ok e) ↔ Removable proc s p := by
  rw [osRemove_ok_iff_or, unlink_ok_iff, rmdir_ok_iff]
  constructor
  · rintro (⟨q, node, hf, htype, hq, hmay⟩ | ⟨q, node, hf, htype, hleaf, hq, hmay⟩)
    · exact ⟨q, node, hf, hq, hmay, fun h => absurd h htype⟩
    · exact ⟨q, node, hf, hq, hmay, fun _ => hleaf⟩
  · rintro ⟨q, node, hf, hq, hmay, hleaf⟩
    by_cases htype : node.type = .directory
    · exact .inr ⟨q, node, hf, htype, hleaf htype, hq, hmay⟩
    · exact .inl ⟨q, node, hf, htype, hq, hmay⟩

/-- A node can be moved when all the tests of `rename` pass. The tests are made in the order of
`Movable`, and each of them has its own errno, which is not of interest here. -/
theorem moveEntry_ok_iff {old new : Path} {node : Node} :
    (∃ e, moveEntry proc s old new node = .ok e) ↔ Movable proc s old new node := by
  unfold moveEntry
  constructor
  · intro h
    split at h
    · simp at h
    rename_i hroot
    split at h
    · simp at h
    rename_i hbelow
    split at h
    · simp at h
    rename_i hmay
    obtain ⟨hsource, htarget⟩ := not_or.mp hmay
    refine ⟨hroot, hbelow, by simpa using hsource, by simpa using htarget, ?_⟩
    rintro mode rfl
    -- A directory that gets another parent has to be writable, since its entry `..` changes.
    rw [ite_error_iff] at h
    by_cases hparent : old.dropLast = new.dropLast
    · exact .inl hparent
    · exact .inr (by simpa [hparent] using h)
  · intro h
    rw [if_neg h.notRoot, if_neg h.notBelow, if_neg (by simp [h.source, h.target])]
    cases node with
    | dir mode =>
      rw [ite_error_iff]
      rintro ⟨hparent, hmay⟩
      rcases h.self mode rfl with heq | hself
      · exact hparent heq
      · rw [hself] at hmay
        cases hmay
    | _ => exact ⟨_, rfl⟩

/-- What is not a directory replaces what is not one. For directories there is the further condition
that the old one is empty. -/
theorem replaceable_ok_iff {node node' : Node} {n : Path} (h : node'.type ≠ .directory) :
    replaceable s node n node' = .ok () ↔ node.type ≠ .directory := by
  cases node' with
  | dir mode => exact absurd rfl h
  | _ => cases node <;> simp [replaceable, Node.type]

/-- The test of `os.Rename`: a directory is only replaced by itself, under another text. `os.Rename`
makes this test because `rename` itself would replace an empty directory. -/
theorem renameTarget_ok_iff {old new : Path} :
    renameTarget proc s old new = .ok () ↔
      ∀ n node', resolve proc s false new = .ok (.existing n node') → node'.type = .directory →
        ∃ node, resolve proc s false old = .ok (.existing n node) ∧ new ≠ old := by
  simp only [← lstat_eq_ok]
  unfold renameTarget
  constructor
  · intro h n node' hnew htype
    obtain ⟨mode, rfl⟩ : ∃ mode, node' = .dir mode := by
      cases node' <;> simp_all [Node.type]
    rw [hnew] at h
    cases hold : lstat proc s old with
    | error e =>
      rw [hold] at h
      cases h
    | ok found =>
      rw [hold] at h
      dsimp only at h
      split at h
      · cases h
      · rename_i hsame
        -- The test passes for a directory only when both paths lead to it by different texts.
        obtain ⟨htext, hpath⟩ := not_or.mp hsame
        rw [not_not.mp hpath]
        exact ⟨found.2, rfl, htext⟩
  · intro h
    split
    · rename_i n mode hnew
      obtain ⟨node, hold, htext⟩ := h n _ hnew rfl
      rw [hold]
      simp [htext]
    · rfl

/-- When `rename` succeeds: the old path leads to an entry, and the new one is free, or leads to the
same entry, or to one that can be replaced. The cases are those in which the two walks end. -/
theorem rename_ok_iff {old new : Path} :
    (∃ e, rename proc s old new = .ok e) ↔
      ∃ o node, resolve proc s false old = .ok (.existing o node) ∧
        ((∃ parent name, resolve proc s false new = .ok (.missing parent name) ∧
            Movable proc s o (parent ++ [name]) node) ∨
          ∃ n node', resolve proc s false new = .ok (.existing n node') ∧
            (o = n ∨ o ≠ n ∧ replaceable s node n node' = .ok () ∧ Movable proc s o n node)) := by
  unfold rename
  cases resolve proc s false old with
  | error e => simp
  | ok found =>
    cases found with
    | missing parent name => simp
    | existing o node =>
      cases resolve proc s false new with
      | error e => simp
      | ok found' =>
        cases found' with
        | missing parent name => simp [moveEntry_ok_iff]
        | existing n node' =>
          -- A rename to the same entry succeeds without any test.
          by_cases hsame : o = n
          · simp [hsame]
          · cases hreplace : replaceable s node n node' with
            | error e => simp [hsame, hreplace]
            | ok u => simp [hsame, hreplace, moveEntry_ok_iff]

/-- `os.Rename` refuses to replace a directory before it calls `rename`. So it succeeds when both
its own test and all the tests of the system call pass. The test of its own follows no link at the
end of the new path. -/
theorem osRename_ok_iff {old new : Path} :
    (∃ e, osRename proc s old new = .ok e) ↔ Renamable proc s old new := by
  have hboth : (∃ e, osRename proc s old new = .ok e) ↔
      renameTarget proc s old new = .ok () ∧ ∃ e, rename proc s old new = .ok e := by
    unfold osRename
    cases renameTarget proc s old new with
    | error e => simp
    | ok u => simp [mapError_ok_iff]
  rw [hboth, renameTarget_ok_iff, rename_ok_iff]
  constructor
  · rintro ⟨htarget, o, node, hold, hfree | ⟨n, node', hnew, hmove⟩⟩
    · exact ⟨o, node, hold, .inl hfree⟩
    · refine ⟨o, node, hold, .inr ⟨n, node', hnew, ?_⟩⟩
      rcases hmove with rfl | ⟨hne, hreplace, hmovable⟩
      · refine .inl ⟨rfl, fun htype => ?_⟩
        obtain ⟨-, -, htext⟩ := htarget o node' hnew htype
        exact htext
      · -- Another directory is not replaced.
        have htype : node'.type ≠ .directory := by
          intro htype
          obtain ⟨node'', hold', -⟩ := htarget n node' hnew htype
          rw [hold] at hold'
          cases hold'
          exact hne rfl
        exact .inr ⟨hne, htype, (replaceable_ok_iff htype).mp hreplace, hmovable⟩
  · rintro ⟨o, node, hold, ⟨parent, name, hnew, hmovable⟩ | ⟨n, node', hnew, hmove⟩⟩
    · refine ⟨?_, o, node, hold, .inl ⟨parent, name, hnew, hmovable⟩⟩
      intro n node' hnew'
      rw [hnew] at hnew'
      cases hnew'
    · rcases hmove with ⟨rfl, htext⟩ | ⟨hne, htype', htype, hmovable⟩
      · refine ⟨?_, o, node, hold, .inr ⟨o, node', hnew, .inl rfl⟩⟩
        intro n node'' hnew' htype
        rw [hnew] at hnew'
        cases hnew'
        exact ⟨node, hold, htext htype⟩
      · refine ⟨?_, o, node, hold,
          .inr ⟨n, node', hnew, .inr ⟨hne, (replaceable_ok_iff htype').mpr htype, hmovable⟩⟩⟩
        intro n' node'' hnew' htype''
        rw [hnew] at hnew'
        cases hnew'
        exact absurd htype'' htype'

/-- `chmod` succeeds for every node that the path leads to. Owners are not in the model. -/
theorem chmod_ok_iff {mode : Mode} :
    (∃ e, chmod proc s mode p = .ok e) ↔
      ∃ q node, resolve proc s true p = .ok (.existing q node) := by
  unfold chmod
  split <;> simp_all

end Success

end Library.Posix
