import ReplicatedFs.Library.Posix.Disk
import ReplicatedFs.Library.Posix.Os

/-!
# `ReplicatedFs.Library.Posix.Entries`: what the calls do to the entries of one directory

`Store.kinds` is what is below a directory, up to the content and the mode of the nodes. When no
symbolic link is on the way to the directory, a call on one of its entries is a `Change` of these
kinds: nothing, a file at an entry, an entry less, or an entry under another name. `Edit.Does`
says which edits of the tree are which change.

* `Edit.Does.kinds`: the kinds after an edit are those that its change makes.
* `openFile_does`, `unlink_does`, `rename_does` and the like: which change a call makes. It does
  not depend on where the directory is, so two directories with the same kinds have the same
  kinds after the same calls.
* `Edit.Does.retarget`: the descriptors of the entries that a change spares.
-/

set_option autoImplicit false

namespace Library.Posix

/-- The types of the nodes below a directory, by their paths from there. -/
abbrev Kinds := Path → Option FileType

/-- The kinds of nodes below the directory. -/
def Store.kinds (s : Store) (dir : Path) : Kinds := fun rel => (s.get (dir ++ rel)).map Node.type

/-- A change of the entries of a directory. -/
inductive Change
  | keep
  | file (name : Name)
  | drop (name : Name)
  | move (old new : Name)
  deriving DecidableEq, Repr

/-- The kinds after the change. -/
def Change.apply (k : Kinds) : Change → Kinds
  | .keep => k
  | .file name => Function.update k [name] (some .regular)
  | .drop name => Function.update k [name] none
  | .move old new => fun q =>
    if [new] <+: q then k (old :: q.drop 1) else if [old] <+: q then none else k q

/-- The entry is neither dropped nor moved nor replaced by another one. -/
def Change.spares (name : Name) : Change → Bool
  | .keep | .file _ => true
  | .drop n => n ≠ name
  | .move old new => old ≠ name ∧ new ≠ name

/-- The edit makes the change to the entries of the directory. -/
inductive Edit.Does (dir : Path) : Edit → Change → Prop
  | keep : Does dir .keep .keep
  | file (name : Name) (mode : Mode) (content : List UInt8) :
    Does dir (.put (dir ++ [name]) (.file mode content)) (.file name)
  | drop (name : Name) : Does dir (.delete (dir ++ [name])) (.drop name)
  | move (old new : Name) : Does dir (.move (dir ++ [old]) (dir ++ [new])) (.move old new)

/-- A file over a file is no change, as far as the kinds are concerned. -/
theorem Change.file_apply {k : Kinds} {name : Name} (h : k [name] = some .regular) :
    (Change.file name).apply k = k := by
  rw [Change.apply, ← h, Function.update_eq_self]

/-- A spared entry is still there, and it is what it was or a regular file. The latter is for a file
that is made anew where one was. -/
theorem Change.apply_spared {ch : Change} {k : Kinds} {name : Name}
    (h : ch.spares name = true) :
    ch.apply k [name] = k [name] ∨ ch.apply k [name] = some .regular := by
  cases ch with
  | keep => exact .inl rfl
  | file n =>
    by_cases hn : n = name
    · subst hn
      exact .inr (by simp [Change.apply])
    · left
      simp only [Change.apply]
      exact Function.update_of_ne (by simpa using Ne.symm hn) _ _
  | drop n =>
    have hn : n ≠ name := by simpa [Change.spares] using h
    left
    simp only [Change.apply]
    exact Function.update_of_ne (by simpa using Ne.symm hn) _ _
  | move old new =>
    -- A move touches the entry that goes and the one that is replaced.
    obtain ⟨hold, hnew⟩ : old ≠ name ∧ new ≠ name := by simpa [Change.spares] using h
    left
    simp [Change.apply, hold, hnew]

section Edits
variable {s : Store} {dir : Path} {e : Edit} {ch : Change}

/-- Paths below the directory, by their names from there. The kinds are indexed by these names. -/
private theorem entry_prefix_iff {name : Name} {rel : Path} :
    dir ++ [name] <+: dir ++ rel ↔ [name] <+: rel := List.prefix_append_right_inj dir

/-- The kinds after an edit are those that its change makes. So an edit of a whole tree can be
followed on the entries of one directory. For a move this is about all that is below the entry,
because a directory moves with its content. -/
theorem Edit.Does.kinds (h : e.Does dir ch) :
    (e.apply s).kinds dir = ch.apply (s.kinds dir) := by
  funext rel
  cases h with
  | keep => rfl
  | file name mode content =>
    by_cases hrel : rel = [name]
    · subst hrel
      simp [Store.kinds, Edit.apply, Change.apply, Node.type]
    · simp [Store.kinds, Edit.apply, Change.apply, hrel]
  | drop name =>
    by_cases hrel : rel = [name]
    · subst hrel
      simp [Store.kinds, Edit.apply, Change.apply]
    · simp [Store.kinds, Edit.apply, Change.apply, hrel]
  | move old new =>
    -- A whole subtree moves: what is below the new name comes from below the old one.
    simp only [Store.kinds, Edit.apply, Store.get_move, Store.moved, Change.apply,
      entry_prefix_iff]
    split
    · rename_i hnew
      obtain ⟨rest, rfl⟩ := hnew
      simp
    · split <;> rfl

/-- An edit of entries changes nothing outside the directory, and not the directory itself. -/
theorem Edit.Does.get_above (h : e.Does dir ch) {q : Path} (hq : q <+: dir) :
    (e.apply s).get q = s.get q := by
  have hnot : ∀ name, ¬ dir ++ [name] <+: q := by
    intro name hpre
    have hlen := (hpre.trans hq).length_le
    rw [List.length_append, List.length_singleton] at hlen
    omega
  have hne : ∀ name, q ≠ dir ++ [name] := fun name heq => hnot name (heq ▸ List.prefix_refl _)
  cases h with
  | keep => rfl
  | file name mode content => exact Function.update_of_ne (hne name) _ _
  | drop name => exact Function.update_of_ne (hne name) _ _
  | move old new => simp [Edit.apply, Store.moved, hnot]

/-- A change of one file leaves everything else as it is, inside the directory and outside. -/
theorem Edit.Does.get_of_file (h : e.Does dir ch) {name : Name}
    (hch : ch = .keep ∨ ch = .file name) {q : Path} (hq : q ≠ dir ++ [name]) :
    (e.apply s).get q = s.get q := by
  cases h with
  | keep => rfl
  | file n mode content =>
    obtain rfl : n = name := by simpa using hch
    exact Function.update_of_ne hq _ _
  | drop n => simp at hch
  | move old new => simp at hch

/-- No link is on the way to the directory after an edit of its entries. -/
theorem Edit.Does.plain (h : e.Does dir ch) (hplain : s.Plain true dir) :
    (e.apply s).Plain true dir := by
  intro q hq hor
  rw [h.get_above ((List.mem_inits _ _).mp hq)]
  exact hplain q hq hor

/-- The descriptor of an entry that the change spares still refers to this entry. -/
theorem Edit.Does.retarget (h : e.Does dir ch) {name : Name} (hspares : ch.spares name = true)
    (orphans : Nat) :
    e.retarget orphans (.named (dir ++ [name])) = .named (dir ++ [name]) := by
  cases h with
  | keep => rfl
  | file n mode content => rfl
  | drop n =>
    have hn : n ≠ name := by simpa [Change.spares] using hspares
    simp [Edit.retarget, Edit.dropped, Edit.target, hn]
  | move old new =>
    obtain ⟨hold, hnew⟩ : old ≠ name ∧ new ≠ name := by simpa [Change.spares] using hspares
    simp [Edit.retarget, Edit.dropped, Edit.target, hold, hnew]

/-- The descriptors after an edit that spares the entry they refer to. They would otherwise refer to
a file without an entry, or to another path. -/
theorem Disk.file?_commit {d : Disk} (h : e.Does dir ch) (ha : e.Allowed d.tree.1) {fd : Nat}
    {file : OpenFile} (hfile : d.file? fd = some file) {name : Name}
    (href : file.ref = .named (dir ++ [name])) (hspares : ch.spares name = true) :
    (d.commit e ha).file? fd = some file := by
  -- The descriptor is open.
  have hget : d.files[fd]? = some (some file) := by
    unfold Disk.file? at hfile
    cases hopt : d.files[fd]? with
    | none => simp [hopt] at hfile
    | some f =>
      rw [hopt] at hfile
      exact congrArg some hfile
  simp only [Disk.file?, Disk.commit, List.getElem?_map, hget, Option.map_some, Option.join_some,
    Option.some.injEq]
  rw [href, h.retarget hspares, ← href]

end Edits

section Calls
variable {proc : Process} {s : Store} {dir : Path} {name : Name}

/-- The way to an entry is the way to the directory. The entry itself may be a link, as it is not
followed. -/
theorem Store.Plain.entry (h : s.Plain true dir) (name : Name) :
    s.Plain false (dir ++ [name]) := by
  intro q hq hor
  have hpre := (List.mem_inits _ _).mp hq
  rcases List.prefix_concat_iff.mp hpre with rfl | hpre
  · simp at hor
  · exact h q ((List.mem_inits _ _).mpr hpre) (.inr rfl)

/-- An entry that is not a link itself. Then it does not matter whether links at the end are
followed. -/
theorem Store.Plain.entry_of_ne (h : s.Plain true dir) {name : Name}
    (hlink : s.kinds dir [name] ≠ some .symlink) (follow : Bool) :
    s.Plain follow (dir ++ [name]) := by
  intro q hq hor
  have hpre := (List.mem_inits _ _).mp hq
  rcases List.prefix_concat_iff.mp hpre with rfl | hpre
  · exact hlink
  · exact h q ((List.mem_inits _ _).mpr hpre) (.inr rfl)

variable (hnormal : Normal (dir ++ [name]))
include hnormal

/-- What an entry without links leads to: to itself, or to its place in the directory when it is
missing. -/
theorem resolve_entry {follow : Bool} (hplain : s.Plain follow (dir ++ [name])) {f : Found}
    (h : resolve proc s follow (dir ++ [name]) = .ok f) :
    (∃ node, f = .existing (dir ++ [name]) node ∧ s.get (dir ++ [name]) = some node) ∨
      f = .missing dir name ∧ s.get (dir ++ [name]) = none := by
  have hat := resolve_at hnormal hplain h
  have hsound := resolve_sound h
  cases f with
  | existing q node =>
    obtain rfl : q = dir ++ [name] := hat
    exact .inl ⟨node, rfl, hsound⟩
  | missing parent n =>
    -- The last name and the directory are determined by the path.
    obtain ⟨rfl, hn⟩ := List.append_inj' (show parent ++ [n] = dir ++ [name] from hat) rfl
    cases hn
    exact .inr ⟨rfl, hsound.2⟩

/-- The kinds after `open`: a file at the entry if nothing was there. -/
theorem openFile_does {flags : OpenFlags} {mode : Mode}
    (hplain : s.Plain flags.follows (dir ++ [name])) {q : Path} {e : Edit}
    (h : openFile proc s flags mode (dir ++ [name]) = .ok (q, e)) :
    q = dir ++ [name] ∧ (s.kinds dir [name] = none → flags.create = true) ∧
      ∃ ch, e.Does dir ch ∧ (ch = .keep ∨ ch = .file name) ∧
        ch.apply (s.kinds dir) =
          if s.kinds dir [name] = none then (Change.file name).apply (s.kinds dir)
          else s.kinds dir := by
  rcases openFile_eq_ok h with ⟨node, hf, hedit⟩ | ⟨parent, n, m, hf, hcreate, rfl, rfl⟩
  · rcases resolve_entry hnormal hplain hf with ⟨node', heq, hget⟩ | ⟨heq, -⟩
    · cases heq
      have hsome : s.kinds dir [name] ≠ none := by simp [Store.kinds, hget]
      refine ⟨rfl, fun hnone => absurd hnone hsome, ?_⟩
      rw [if_neg hsome]
      rcases hedit with rfl | ⟨-, m, content, rfl, rfl⟩
      · exact ⟨.keep, .keep, .inl rfl, rfl⟩
      · -- A file that is truncated is still a file.
        refine ⟨.file name, .file name m [], .inr rfl, Change.file_apply ?_⟩
        simp [Store.kinds, hget, Node.type]
    · cases heq
  · rcases resolve_entry hnormal hplain hf with ⟨node', heq, -⟩ | ⟨heq, hget⟩
    · cases heq
    · cases heq
      have hnone : s.kinds dir [name] = none := by simp [Store.kinds, hget]
      refine ⟨rfl, fun _ => hcreate, .file name, .file name m [], .inr rfl, ?_⟩
      rw [if_pos hnone]

/-- `unlink` drops the entry, and nothing else changes among the entries of the directory. -/
theorem unlink_does (hplain : s.Plain true dir) {e : Edit}
    (h : unlink proc s (dir ++ [name]) = .ok e) : e.Does dir (.drop name) := by
  obtain rfl := unlink_at hnormal (hplain.entry name) h
  exact .drop name

/-- `os.Remove` drops the entry, be it by `unlink` or by `rmdir`. -/
theorem osRemove_does (hplain : s.Plain true dir) {e : Edit}
    (h : osRemove proc s (dir ++ [name]) = .ok e) : e.Does dir (.drop name) := by
  obtain rfl := osRemove_at hnormal (hplain.entry name) h
  exact .drop name

/-- `rename` moves the entry, and it does nothing when both names are the same. The names are those
of one directory, and the path of that has no link in it. The entries themselves may be links, as
`rename` does not follow them. -/
theorem rename_does {new : Name} (hnew : Normal (dir ++ [new])) (hplain : s.Plain true dir)
    {e : Edit} (h : rename proc s (dir ++ [name]) (dir ++ [new]) = .ok e) :
    e.Does dir (if name = new then .keep else .move name new) := by
  obtain ⟨o, node, hf, hcases⟩ := rename_eq_ok h
  obtain rfl : o = dir ++ [name] := resolve_at hnormal (hplain.entry name) hf
  rcases hcases with ⟨parent, n, hf', hnot, rfl⟩ |
    ⟨n, node', hf', ⟨heq, rfl⟩ | ⟨hne, -, -, rfl⟩⟩
  · -- Nothing is at the new name. It is not the old one, which is there.
    have hat : parent ++ [n] = dir ++ [new] := resolve_at hnew (hplain.entry new) hf'
    rw [hat] at hnot ⊢
    have hne : name ≠ new := by
      rintro rfl
      exact hnot (List.prefix_refl _)
    rw [if_neg hne]
    exact .move name new
  · obtain rfl : n = dir ++ [new] := resolve_at hnew (hplain.entry new) hf'
    -- Both names lead to one node, and `rename` does nothing.
    rw [if_pos (by simpa using heq)]
    exact .keep
  · obtain rfl : n = dir ++ [new] := resolve_at hnew (hplain.entry new) hf'
    rw [if_neg (by simpa using hne)]
    exact .move name new

/-- `os.Rename` does what `rename` does. A rename of an entry to itself changes nothing. -/
theorem osRename_does {new : Name} (hnew : Normal (dir ++ [new])) (hplain : s.Plain true dir)
    {e : Edit} (h : osRename proc s (dir ++ [name]) (dir ++ [new]) = .ok e) :
    e.Does dir (if name = new then .keep else .move name new) := by
  unfold osRename at h
  split at h
  · cases h
  · exact rename_does hnormal hnew hplain (ok_of_mapError h)

end Calls

end Library.Posix
