import ReplicatedFs.Library.Posix.Content
import ReplicatedFs.Library.Posix.Names

/-!
# `ReplicatedFs.Library.Posix.Outline`: the tree below a directory

`Store.outline` is what `lstat` shows of the tree below a directory: which entries there are, with
their types, modes and targets. The directory is its root, and the contents of the files are left
out. Two directories with the same outline may be at different places.

A path can lead out of the directory over a symbolic link. `Inside` says that it does not: it
leads to the same place when the directory is the root. For such a path each function of `os` does
in the outline what it does in the whole tree (`osMkdir_outline` and the like).

`os.Remove` stands for two system calls. `osRemove_eq_unlink` and `osRemove_eq_rmdir` say when it
does what one of them does.
-/

set_option autoImplicit false

namespace Library.Posix

/-- The edit of a call. A call that fails makes none. -/
def Edit.ofResult {ε : Type} : Except ε Edit → Edit
  | .ok e => e
  | .error _ => .keep

/-- The edit of a call does not depend on how its error is wrapped. -/
@[simp] theorem Edit.ofResult_mapError {ε ε' : Type} (f : ε → ε') (x : Except ε Edit) :
    Edit.ofResult (x.mapError f) = Edit.ofResult x := by
  cases x <;> rfl

/-- The disk after a call that edits its tree. With an error the edit is none, so both cases are one
equation. -/
@[simp] theorem Disk.perform_tree (d : Disk) (x : Except Errno Edit)
    (h : ∀ e, x = .ok e → e.Allowed d.tree.1) :
    (d.perform x h).1.tree.1 = (Edit.ofResult x).apply d.tree.1 := by
  cases x <;> rfl

/-- The disk after `open`, as a single equation for success and failure. -/
theorem Disk.openFile_tree (proc : Process) (d : Disk) (flags : OpenFlags) (mode : Mode)
    (p : Path) :
    (d.openFile proc flags mode p).1.tree.1 =
      (Edit.ofResult ((Posix.openFile proc d.tree.1 flags mode p).map Prod.snd)).apply
        d.tree.1 := by
  unfold Disk.openFile
  split
  · rename_i err hopen
    rw [hopen]
    rfl
  · rename_i q e hopen
    show e.apply d.tree.1 = _
    rw [hopen]
    rfl

/-- The tree below the directory, without the contents of the files. -/
def Store.outline (s : Store) (dir : Path) : Store where
  get q := (s.get (dir ++ q)).map (Node.withContent [])
  names := (s.names.filter (dir <+: ·)).image (List.drop dir.length)
  mem_names q := by
    simp only [Finset.mem_image, Finset.mem_filter, Option.isSome_map, ← s.mem_names]
    constructor
    · rintro ⟨_, ⟨hmem, k, rfl⟩, rfl⟩
      rwa [List.drop_left]
    · intro hmem
      exact ⟨dir ++ q, ⟨hmem, List.prefix_append _ _⟩, List.drop_left⟩

section Outline
variable {s s' : Store} {dir q : Path}

/-- A node of the outline is the one at the same place below the directory, without its content. -/
theorem Store.get_outline (s : Store) (dir q : Path) :
    (s.outline dir).get q = (s.get (dir ++ q)).map (Node.withContent []) := rfl

/-- The contents of the files are not in the outline, so stores of the same shape have the same
one. -/
theorem Store.SameShape.outline (h : s.SameShape s') (dir : Path) :
    s.outline dir = s'.outline dir :=
  Store.ext (funext fun q => h (dir ++ q))

/-- Putting a node below the directory puts it into the outline. -/
theorem Store.outline_put (node : Node) :
    (s.put (dir ++ q) node).outline dir = (s.outline dir).put q (node.withContent []) := by
  refine Store.ext (funext fun k => ?_)
  by_cases hk : k = q
  · subst hk
    simp [Store.get_outline]
  · simp [Store.get_outline, hk]

/-- Deleting a node below the directory deletes it from the outline. -/
theorem Store.outline_delete :
    (s.delete (dir ++ q)).outline dir = (s.outline dir).delete q := by
  refine Store.ext (funext fun k => ?_)
  by_cases hk : k = q
  · subst hk
    simp [Store.get_outline]
  · simp [Store.get_outline, hk]

/-- Nothing is below a path of the outline if nothing is below it in the tree. -/
theorem Store.isLeaf_outline : (s.outline dir).isLeaf q = s.isLeaf (dir ++ q) := by
  rw [Bool.eq_iff_iff, Store.isLeaf_iff, Store.isLeaf_iff]
  constructor
  · rintro h _ ⟨rest, rfl⟩ hne
    have hrest := h (q ++ rest) (List.prefix_append _ _) (by simpa using hne)
    rw [List.append_assoc]
    simpa [Store.get_outline] using hrest
  · rintro h _ ⟨rest, rfl⟩ hne
    have hrest := h (dir ++ (q ++ rest)) (by simp) (by simpa using hne)
    rw [Store.get_outline, hrest]
    rfl

/-- Permissions are a part of the outline, so they can be asked there. -/
theorem mayChange_outline (proc : Process) :
    proc.mayChange (s.outline dir) q = proc.mayChange s (dir ++ q) := by
  unfold Process.mayChange
  rw [Store.get_outline]
  cases s.get (dir ++ q) with
  | none => rfl
  | some node => cases node <;> rfl

/-- An edit of the tree, and the edit of the outline that comes of it. -/
inductive SameEdit (dir : Path) : Edit → Edit → Prop
  | keep : SameEdit dir .keep .keep
  | put (q : Path) (node : Node) :
      SameEdit dir (.put (dir ++ q) node) (.put q (node.withContent []))
  | delete (q : Path) : SameEdit dir (.delete (dir ++ q)) (.delete q)

/-- The outline after an edit is the outline with the corresponding edit. This is what the relation
between the two is for. -/
theorem SameEdit.outline {e e' : Edit} (h : SameEdit dir e e') :
    (e.apply s).outline dir = e'.apply (s.outline dir) := by
  cases h with
  | keep => rfl
  | put q node => exact Store.outline_put node
  | delete q => exact Store.outline_delete

end Outline

/-- What is found in the outline, in the whole tree. -/
def Found.inDir (dir : Path) : Found → Found
  | .existing q node => .existing (dir ++ q) node
  | .missing parent name => .missing (dir ++ parent) name

/-- What is found, without its content. -/
def Found.outline : Found → Found
  | .existing q node => .existing q (node.withContent [])
  | .missing parent name => .missing parent name

/-- The path leads to the same place when the directory is the root. -/
def Inside (proc : Process) (s : Store) (follow : Bool) (dir q : Path) : Prop :=
  (resolve proc s follow (dir ++ q)).map Found.outline =
    (resolve proc (s.outline dir) follow q).map (Found.inDir dir)

instance (proc : Process) (s : Store) (follow : Bool) (dir q : Path) :
    Decidable (Inside proc s follow dir q) :=
  inferInstanceAs (Decidable (_ = _))

/-- Where a path leads in the tree, and in the outline. -/
inductive SameWay (dir : Path) : Except Errno Found → Except Errno Found → Prop
  | error (err : Errno) : SameWay dir (.error err) (.error err)
  | existing (q : Path) (node : Node) :
      SameWay dir (.ok (.existing (dir ++ q) node)) (.ok (.existing q (node.withContent [])))
  | missing (parent : Path) (name : Name) :
      SameWay dir (.ok (.missing (dir ++ parent) name)) (.ok (.missing parent name))

/-- The two walks go the same way. This is what `Inside` was made for: a path that leads out of the
directory, by a link or by `..`, would find other nodes in the outline. -/
theorem Inside.way {proc : Process} {s : Store} {follow : Bool} {dir q : Path}
    (h : Inside proc s follow dir q) :
    SameWay dir (resolve proc s follow (dir ++ q)) (resolve proc (s.outline dir) follow q) := by
  unfold Inside at h
  -- Only the results of the two walks matter from here on.
  generalize resolve proc s follow (dir ++ q) = x at h ⊢
  cases hx' : resolve proc (s.outline dir) follow q with
  | error err =>
    rw [hx'] at h
    cases x with
    | error err' =>
      cases h
      exact .error _
    | ok f => cases h
  | ok f' =>
    rw [hx'] at h
    cases x with
    | error err => cases h
    | ok f =>
      have hfound : f.outline = f'.inDir dir := Except.ok.inj h
      cases f with
      | existing p node =>
        cases f' with
        | existing p' node' =>
          cases hfound
          exact .existing _ _
        | missing parent name => cases hfound
      | missing parent name =>
        cases f' with
        | existing p' node' => cases hfound
        | missing parent' name' =>
          cases hfound
          exact .missing _ _

section Calls
variable {proc : Process} {s : Store} {dir q : Path}

/-- A new entry in the outline. What is made has no content, so that its outline is itself. The
tests before it, of the parent and of its permissions, give the same answers in the outline, since
it has the modes. -/
theorem makeEntry_outline {node : Node} (hnode : node.withContent [] = node)
    (h : Inside proc s false dir q) :
    SameEdit dir (.ofResult (makeEntry proc s node (dir ++ q)))
      (.ofResult (makeEntry proc (s.outline dir) node q)) := by
  have hway := h.way
  unfold makeEntry
  generalize resolve proc s false (dir ++ q) = x at hway ⊢
  generalize resolve proc (s.outline dir) false q = x' at hway ⊢
  cases hway with
  | error err => exact .keep
  | existing p node' => exact .keep
  | missing parent name =>
    simp only [mayChange_outline]
    split
    · have hput : SameEdit dir (.put (dir ++ (parent ++ [name])) node)
          (.put (parent ++ [name]) (node.withContent [])) := .put _ node
      rw [hnode, ← List.append_assoc] at hput
      exact hput
    · exact .keep

/-- `os.Mkdir` in the outline makes the same directory, with the mode that the umask leaves. -/
theorem osMkdir_outline {mode : UInt32} (h : Inside proc s false dir q) :
    SameEdit dir (.ofResult (osMkdir proc s mode (dir ++ q)))
      (.ofResult (osMkdir proc (s.outline dir) mode q)) := by
  simp only [osMkdir, mkdir, Edit.ofResult_mapError]
  exact makeEntry_outline rfl h

/-- `os.Chmod` in the outline. It changes a mode, and the outline keeps the modes. -/
theorem osChmod_outline {mode : UInt32} (h : Inside proc s true dir q) :
    SameEdit dir (.ofResult (osChmod proc s mode (dir ++ q)))
      (.ofResult (osChmod proc (s.outline dir) mode q)) := by
  have hway := h.way
  simp only [osChmod, chmod, Edit.ofResult_mapError]
  generalize resolve proc s true (dir ++ q) = x at hway ⊢
  generalize resolve proc (s.outline dir) true q = x' at hway ⊢
  cases hway with
  | error err => exact .keep
  | missing parent name => exact .keep
  | existing p node =>
    -- The mode and the content of a node are changed independently.
    have hnode : (node.withMode (syscallMode mode &&& 0o7777)).withContent [] =
        (node.withContent []).withMode (syscallMode mode &&& 0o7777) := by
      cases node <;> rfl
    show SameEdit dir (.put _ _) (.put _ _)
    rw [← hnode]
    exact .put p _

/-- `os.OpenFile` with `O_CREATE` in the outline: it makes a file where nothing is. These are the
flags with which the mirror creates a file. They do not truncate, so an existing file is left as it
is in both stores. -/
theorem osOpenFile_outline {mode : UInt32} (h : Inside proc s true dir q) :
    SameEdit dir
      (.ofResult ((osOpenFile proc s { read := true, create := true } mode (dir ++ q)).map
        Prod.snd))
      (.ofResult ((osOpenFile proc (s.outline dir) { read := true, create := true } mode q).map
        Prod.snd)) := by
  -- With these flags a link at the end is followed.
  have hway : SameWay dir
      (resolve proc s (OpenFlags.follows { read := true, create := true }) (dir ++ q))
      (resolve proc (s.outline dir) (OpenFlags.follows { read := true, create := true }) q) := h.way
  unfold osOpenFile
  rw [openFile_of_usual rfl, openFile_of_usual rfl]
  unfold openPath
  generalize resolve proc s (OpenFlags.follows { read := true, create := true }) (dir ++ q) = x
    at hway ⊢
  generalize resolve proc (s.outline dir) (OpenFlags.follows { read := true, create := true })
    q = x'
    at hway ⊢
  cases hway with
  | error err => exact .keep
  | missing parent name =>
    simp only [mayChange_outline, Bool.not_true, Bool.false_eq_true, if_false]
    split
    · show SameEdit dir (.put (dir ++ parent ++ [name]) (.file _ [])) (.put _ (.file _ []))
      rw [List.append_assoc]
      exact .put (parent ++ [name]) _
    · exact .keep
  | existing p node =>
    cases node with
    | symlink target => exact .keep
    | dir m => exact .keep
    | file m content =>
      simp only [Node.withContent]
      cases proc.may mayRead m with
      | false => exact .keep
      | true => exact .keep

/-- An entry is taken out of its directory in the outline. The permission is that of the directory,
which both show. -/
private theorem removeEntry_outline (hq : q ≠ []) :
    SameEdit dir (.ofResult (removeEntry proc s (dir ++ q)))
      (.ofResult (removeEntry proc (s.outline dir) q)) := by
  have hne : dir ++ q ≠ [] := by simp [hq]
  have hparent : proc.mayChange (s.outline dir) q.dropLast =
      proc.mayChange s (dir ++ q).dropLast := by
    rw [mayChange_outline, List.dropLast_append_of_ne_nil hq]
  unfold removeEntry
  rw [if_neg hne, if_neg hq, hparent]
  split
  · exact .delete q
  · exact .keep

end Calls

section Names
variable {proc : Process} {s : Store} {name : Name}

/-- The node is an entry with the name. -/
def Found.Named (name : Name) : Found → Prop
  | .existing q _ => q.getLast? = some name
  | .missing _ n => n = name

/-- A walk along names of which the last one is not special ends at an entry with that name. A link
at the end is not followed. A link in the middle is, but its target is put before the names that are
left, and so the last name stays the last one. `hlink` says this of the walks behind links. -/
private theorem walkFrom_named (hdot : name ≠ ".") (hdots : name ≠ "..")
    {onLink : Path → List Name → Except Errno Found}
    (hlink : ∀ cur rest f, rest.getLast? = some name → onLink cur rest = .ok f → f.Named name)
    (cur : Path) (rest : List Name)
    (hlast : rest.getLast? = some name ∨ rest = [] ∧ cur.getLast? = some name) {f : Found}
    (h : walkFrom proc s false onLink cur rest = .ok f) : f.Named name := by
  induction rest generalizing cur with
  | nil =>
    unfold walkFrom at h
    split at h
    · cases h
      simpa [Found.Named] using hlast
    · cases h
  | cons n rest ih =>
    -- The rest of the names ends with `name`, or `n` is that name.
    have hrest : rest.getLast? = some name ∨ rest = [] ∧ n = name := by
      cases rest with
      | nil => simpa using hlast
      | cons m rest => simpa [List.getLast?_cons_cons] using hlast
    have hspecial : n = "." ∨ n = ".." → rest.getLast? = some name := by
      rintro (rfl | rfl)
      · exact hrest.resolve_right fun hn => hdot hn.2.symm
      · exact hrest.resolve_right fun hn => hdots hn.2.symm
    cases walkFrom_cons h with
    | dot hname h => exact ih cur (.inl (hspecial (.inl hname))) h
    | dotdot hname h => exact ih cur.dropLast (.inl (hspecial (.inr hname))) h
    | missing hdir hnone hnil hf =>
      subst hf hnil
      simpa [Found.Named] using hrest
    | link target hnode hend hf =>
      subst hf
      simpa [Found.Named, hend.1] using hrest
    | followed target hnode hmore h =>
      -- The link is not the last name, so the names still end with `name`.
      refine hlink _ _ f ?_ h
      rcases hrest with hrest | ⟨rfl, -⟩
      · rw [List.getLast?_append, hrest]
        rfl
      · exact absurd ⟨rfl, rfl⟩ hmore
    | entry h =>
      refine ih (cur ++ [n]) ?_ h
      rcases hrest with hrest | ⟨rfl, rfl⟩
      · exact .inl hrest
      · exact .inr ⟨rfl, by simp⟩

/-- A walk that ends without following a link ends at the last name of the path. The names `.` and
`..` are the exceptions. -/
private theorem walk_named (hdot : name ≠ ".") (hdots : name ≠ "..") (links : Nat) (cur : Path)
    (rest : List Name) (hlast : rest.getLast? = some name) {f : Found}
    (h : walk proc s false links cur rest = .ok f) : f.Named name := by
  induction links generalizing cur rest f with
  | zero => exact walkFrom_named hdot hdots (fun _ _ _ _ hk => by cases hk) cur rest (.inl hlast) h
  | succ links ih =>
    exact walkFrom_named hdot hdots (fun cur rest f hl hk => ih cur rest hl hk) cur rest
      (.inl hlast) h

/-- A path that ends with a name leads to an entry with that name. -/
theorem resolve_named (hdot : name ≠ ".") (hdots : name ≠ "..") {p : Path}
    (hlast : p.getLast? = some name) {f : Found} (h : resolve proc s false p = .ok f) :
    f.Named name :=
  walk_named hdot hdots 40 [] p hlast h

/-- A walk that does not end with a link is the same when a link at its end is followed. So `stat`
and `lstat` differ only at the links themselves. By induction on the names, where `hlink` is the
statement for the walks behind the links in the middle of the path. -/
private theorem walkFrom_follow {onLink onLink' : Path → List Name → Except Errno Found}
    (hlink : ∀ cur rest, (∀ q t, onLink cur rest ≠ .ok (.existing q (.symlink t))) →
      onLink' cur rest = onLink cur rest) (cur : Path) (rest : List Name)
    (h : ∀ q t, walkFrom proc s false onLink cur rest ≠ .ok (.existing q (.symlink t))) :
    walkFrom proc s true onLink' cur rest = walkFrom proc s false onLink cur rest := by
  induction rest generalizing cur with
  | nil => rfl
  | cons n rest ih =>
    unfold walkFrom at h ⊢
    split
    · rename_i mode hcur
      simp only [hcur] at h
      split
      · rfl
      rename_i hmay
      rw [if_neg hmay] at h
      split
      · rename_i hn
        rw [if_pos hn] at h
        exact ih cur h
      rename_i hn
      rw [if_neg hn] at h
      split
      · rename_i hn'
        rw [if_pos hn'] at h
        exact ih cur.dropLast h
      rename_i hn'
      rw [if_neg hn'] at h
      split
      · rfl
      · -- A link at the end would be found.
        rename_i target hnext
        simp only [hnext] at h
        split at h
        · exact absurd rfl (h _ _)
        · rename_i hmore
          have hmore' : ¬ (rest = [] ∧ false = false) := by simpa using hmore
          have hfollow : ¬ (rest = [] ∧ true = false) := by simp
          -- It is in the middle of the path, where a slash after its target does not matter.
          have hmid : decide (rest = [] ∧ target.toList.getLast? = some '/') = false := by
            simpa using fun hrest => absurd ⟨hrest, rfl⟩ hmore'
          rw [if_neg hmore', if_neg hfollow, hmid, bind_after_false, bind_after_false]
          rw [hmid, bind_after_false] at h
          exact hlink _ _ h
      · rename_i node hnot hnext
        have hwalk : ∀ q t, walkFrom proc s false onLink (cur ++ [n]) rest ≠
            .ok (.existing q (.symlink t)) := by
          cases node with
          | symlink target => exact absurd rfl (hnot target)
          | file m content => simpa only [hnext] using h
          | dir m => simpa only [hnext] using h
        exact ih (cur ++ [n]) hwalk
    · rfl
    · rfl

/-- When the walk does not end at a link, it does not matter whether a link at the end is followed.
-/
private theorem walk_follow (links : Nat) (cur : Path) (rest : List Name)
    (h : ∀ q t, walk proc s false links cur rest ≠ .ok (.existing q (.symlink t))) :
    walk proc s true links cur rest = walk proc s false links cur rest := by
  induction links generalizing cur rest with
  | zero => exact walkFrom_follow (fun _ _ _ => rfl) cur rest h
  | succ links ih => exact walkFrom_follow (fun cur rest hk => ih cur rest hk) cur rest h

/-- A path that does not end with a link leads to the same place when a link at its end is
followed. -/
theorem resolve_follow {p : Path}
    (h : ∀ q t, resolve proc s false p ≠ .ok (.existing q (.symlink t))) :
    resolve proc s true p = resolve proc s false p :=
  walk_follow 40 [] p h

end Names

section Remove
variable {proc : Process} {s : Store} {dir p : Path}

/-- `os.Remove` takes out what is not a directory, and a directory that is empty. This is its effect
as one function of what the path leads to, without the two calls that it tries. -/
theorem osRemove_edit :
    Edit.ofResult (osRemove proc s p) =
      match resolve proc s false p with
      | .ok (.existing q (.dir _)) =>
        if s.isLeaf q then .ofResult (removeEntry proc s q) else .keep
      | .ok (.existing q _) => .ofResult (removeEntry proc s q)
      | _ => .keep := by
  unfold osRemove unlink rmdir
  cases resolve proc s false p with
  | error err => rfl
  | ok f =>
    cases f with
    | missing parent name => rfl
    | existing q node =>
      cases node with
      | dir m =>
        dsimp only
        -- `unlink` fails on a directory, and `rmdir` decides.
        cases s.isLeaf q with
        | false => rfl
        | true =>
          simp only [if_true]
          cases removeEntry proc s q <;> rfl
      | file m content =>
        dsimp only
        cases removeEntry proc s q <;> rfl
      | symlink target =>
        dsimp only
        cases removeEntry proc s q <;> rfl

/-- `os.Remove` of an entry in the outline. The root of the outline is no entry of it, so it is not
removed there. -/
theorem osRemove_outline (r : List EntryName) (name : EntryName)
    (h : Inside proc s false dir (EntryName.values (r ++ [name]))) :
    SameEdit dir (.ofResult (osRemove proc s (dir ++ EntryName.values (r ++ [name]))))
      (.ofResult (osRemove proc (s.outline dir) (EntryName.values (r ++ [name])))) := by
  have hway := h.way
  have hnamed : ∀ f, resolve proc (s.outline dir) false (EntryName.values (r ++ [name])) = .ok f →
      f.Named name.name :=
    fun f => resolve_named name.ne_dot name.ne_dotdot (by simp [EntryName.values])
  rw [osRemove_edit, osRemove_edit]
  generalize EntryName.values (r ++ [name]) = q at hway hnamed ⊢
  generalize resolve proc s false (dir ++ q) = x at hway ⊢
  generalize resolve proc (s.outline dir) false q = x' at hway hnamed ⊢
  cases hway with
  | error err => exact .keep
  | missing parent n => exact .keep
  | existing k node =>
    -- The directory itself is not removed.
    have hk : k ≠ [] := by
      rintro rfl
      cases hnamed _ rfl
    cases node with
    | dir m =>
      simp only [Node.withContent, Store.isLeaf_outline]
      split
      · exact removeEntry_outline hk
      · exact .keep
    | file m content => exact removeEntry_outline hk
    | symlink target => exact removeEntry_outline hk

/-- `lstat` shows a directory without entries. -/
def isEmptyDir (proc : Process) (s : Store) (p : Path) : Bool :=
  match lstat proc s p with
  | .ok (q, .dir _) => s.isLeaf q
  | _ => false

/-- `lstat` shows something that is not a directory. -/
def isNonDir (proc : Process) (s : Store) (p : Path) : Bool :=
  match lstat proc s p with
  | .ok (_, node) => node.type ≠ .directory
  | .error _ => false

/-- `lstat` shows a symbolic link. -/
def isLink (proc : Process) (s : Store) (p : Path) : Bool :=
  match lstat proc s p with
  | .ok (_, node) => node.type = .symlink
  | .error _ => false

/-- `os.Remove` does what `unlink` does, except for an empty directory. It tries `unlink` first and
`rmdir` after that, so a directory that is empty is removed by the second call. In all other cases
the second call fails as well. -/
theorem osRemove_eq_unlink (h : isEmptyDir proc s p = false) :
    Edit.ofResult (osRemove proc s p) = .ofResult (unlink proc s p) := by
  rw [osRemove_edit]
  unfold isEmptyDir lstat statAt at h
  unfold unlink
  cases hf : resolve proc s false p with
  | error err => rfl
  | ok f =>
    rw [hf] at h
    cases f with
    | missing parent name => rfl
    | existing q node =>
      cases node with
      | dir m =>
        -- A directory that is not empty. Both calls leave it alone.
        have hleaf : s.isLeaf q = false := h
        simp only [hleaf, Bool.false_eq_true, if_false]
        rfl
      | file m content => rfl
      | symlink target => rfl

/-- `os.Remove` does what `rmdir` does, except for what is not a directory. That is removed by its
first call, `unlink`, where `rmdir` would have failed. -/
theorem osRemove_eq_rmdir (h : isNonDir proc s p = false) :
    Edit.ofResult (osRemove proc s p) = .ofResult (rmdir proc s p) := by
  rw [osRemove_edit]
  unfold isNonDir lstat statAt at h
  unfold rmdir
  cases hf : resolve proc s false p with
  | error err => rfl
  | ok f =>
    rw [hf] at h
    cases f with
    | missing parent name => rfl
    | existing q node =>
      cases node with
      | dir m =>
        dsimp only
        split <;> rfl
      | file m content => cases h
      | symlink target => cases h

end Remove

section Create
variable (proc : Process) (s : Store) (flags : OpenFlags) (p : Path)

/-- The file that `open` makes where nothing is. -/
def newFile (mode : Mode) : Except Errno Found → Edit
  | .ok (.missing parent name) =>
    if proc.mayChange s parent then
      .put (parent ++ [name]) (.file (mode &&& 0o7777 &&& ~~~proc.umask) [])
    else .keep
  | _ => .keep

/-- `open` with `O_CREAT` makes a file where nothing is. Otherwise it changes contents only, and
truncation is one of these changes. The usual flags are those without `O_DIRECTORY` and `O_PATH`,
with which `open` fails or does not create. -/
theorem openFile_newFile (mode : Mode) (husual : flags.usual = true)
    (hcreate : flags.create = true) :
    ((Edit.ofResult ((openFile proc s flags mode p).map Prod.snd)).apply s).SameShape
      ((newFile proc s mode (resolve proc s flags.follows p)).apply s) := by
  have hrefl : s.SameShape s := fun _ => rfl
  -- The usual flags have neither `O_DIRECTORY` nor `O_PATH`.
  have hdirectory : flags.directory = false := by
    simp only [OpenFlags.usual, Bool.not_eq_true', Bool.or_eq_false_iff] at husual
    exact husual.1.2
  have hpath : flags.path = false := by
    simp only [OpenFlags.usual, Bool.not_eq_true', Bool.or_eq_false_iff] at husual
    exact husual.1.1
  rw [openFile_of_usual husual]
  unfold openPath
  cases hf : resolve proc s flags.follows p with
  | error err => exact hrefl
  | ok f =>
    cases f with
    | missing parent name =>
      simp only [newFile, hcreate, Bool.not_true, Bool.false_eq_true, if_false]
      split
      · exact fun _ => rfl
      · exact hrefl
    | existing q node =>
      have hq : s.get q = some node := resolve_sound hf
      simp only [newFile, hdirectory, hpath, hcreate, Bool.false_and, Bool.false_eq_true, if_false]
      split
      · exact hrefl
      cases node with
      | symlink target => exact hrefl
      | dir m =>
        simp only [Bool.or_true, Bool.true_or, if_true]
        exact hrefl
      | file m content =>
        dsimp only
        split
        · exact hrefl
        split
        · exact hrefl
        cases flags.trunc with
        | false => exact hrefl
        -- Truncation.
        | true => exact fun k => (Store.sameShape_put hq [] k).symm

/-- `os.OpenFile` with `O_CREATE` does so, too, with the mode translated. -/
theorem osOpenFile_newFile (mode : UInt32) (husual : flags.usual = true)
    (hcreate : flags.create = true) :
    ((Edit.ofResult ((osOpenFile proc s flags mode p).map Prod.snd)).apply s).SameShape
      ((newFile proc s (syscallMode mode) (resolve proc s flags.follows p)).apply s) := by
  have hedit : Edit.ofResult ((osOpenFile proc s flags mode p).map Prod.snd) =
      .ofResult ((openFile proc s flags (syscallMode mode) p).map Prod.snd) := by
    unfold osOpenFile
    cases openFile proc s flags (syscallMode mode) p <;> rfl
  rw [hedit]
  exact openFile_newFile proc s flags p (syscallMode mode) husual hcreate

variable {proc s p}

/-- A path that does not end with a link leads to the same place with `O_EXCL`. -/
theorem resolve_of_not_isLink (h : isLink proc s p = false) (follow : Bool) :
    resolve proc s follow p = resolve proc s true p := by
  cases follow with
  | true => rfl
  | false =>
    refine (resolve_follow fun q target hf => ?_).symm
    unfold isLink lstat statAt at h
    rw [hf] at h
    cases h

end Create

section Permissions
variable {proc proc' : Process} {s : Store} {p : Path}
  (hmay : ∀ bit mode, proc'.may bit mode = proc.may bit mode)
include hmay

/-- The process enters into it by its permissions alone, and these are the same. -/
theorem mayChange_eq_of_may : proc'.mayChange s p = proc.mayChange s p := by
  unfold Process.mayChange
  split
  · exact hmay _ _
  · rfl

/-- The two processes remove the same. The texts of their errors may differ, and only the edits are
compared. -/
theorem osRemove_eq_of_may :
    Edit.ofResult (osRemove proc' s p) = .ofResult (osRemove proc s p) := by
  have hremove : ∀ q, removeEntry proc' s q = removeEntry proc s q := by
    intro q
    unfold removeEntry
    rw [mayChange_eq_of_may hmay]
  simp only [osRemove_edit, resolve_eq_of_may hmay, hremove]

/-- The two processes change the same mode. What else they differ in does not matter. -/
theorem osChmod_eq_of_may {mode : UInt32} : osChmod proc' s mode p = osChmod proc s mode p := by
  unfold osChmod chmod
  rw [resolve_eq_of_may hmay]

variable (humask : proc'.umask = proc.umask)
include humask

/-- The umasks have to be the same too, since the mode of the new directory depends on it. -/
theorem osMkdir_eq_of_may {mode : UInt32} : osMkdir proc' s mode p = osMkdir proc s mode p := by
  unfold osMkdir mkdir makeEntry
  simp only [resolve_eq_of_may hmay, mayChange_eq_of_may hmay, humask]

/-- The two processes open the same file, and make one with the same mode. -/
theorem osOpenFile_eq_of_may {flags : OpenFlags} {mode : UInt32} :
    osOpenFile proc' s flags mode p = osOpenFile proc s flags mode p := by
  unfold osOpenFile openFile openPath
  simp only [resolve_eq_of_may hmay, mayChange_eq_of_may hmay, humask, hmay]

end Permissions

end Library.Posix
