import ReplicatedFs.Library.Posix.Disk

/-!
# `ReplicatedFs.Library.Posix.Content`: writing to a file that stays where it is

A write changes the content of one file and nothing else. The paths lead where they led before
(`resolve_put_file`), and the descriptors refer to what they referred to (`Disk.file?_setContent`).
So a sequence of writes through one descriptor, or through one path, can be followed by the
content of one file.

## Stores with the same shape

`Store.SameShape` compares two stores up to the content of their regular files. `resolve` looks
at directories and links only, so it takes the same way in both. At its end it has the node of
the store it looks at, which is what `Found.refresh` says.
-/

set_option autoImplicit false

namespace Library.Posix

/-- The stores differ in the content of regular files only. -/
def Store.SameShape (s s' : Store) : Prop :=
  ∀ p, (s.get p).map (Node.withContent []) = (s'.get p).map (Node.withContent [])

/-- What is found at the same place in another store. -/
def Found.refresh (s : Store) : Found → Found
  | .existing p node => .existing p ((s.get p).getD node)
  | .missing parent name => .missing parent name

section Shape
variable {proc : Process} {s s' : Store} {p : Path}

/-- Contents aside the stores have the same paths, so one has nothing where the other has
nothing. -/
theorem Store.SameShape.get_none (h : s.SameShape s') (hp : s.get p = none) :
    s'.get p = none := by
  have hshape := h p
  rw [hp] at hshape
  simpa using hshape.symm

/-- Where one store has a node, the other has one that is equal apart from its content. -/
theorem Store.SameShape.get_some (h : s.SameShape s') {node : Node} (hp : s.get p = some node) :
    ∃ node', s'.get p = some node' ∧ node'.withContent [] = node.withContent [] := by
  have hshape := h p
  rw [hp, Option.map_some, eq_comm, Option.map_eq_some_iff] at hshape
  exact hshape

/-- A directory has no content, so it is the same in both stores. -/
theorem Store.SameShape.get_dir (h : s.SameShape s') {mode : Mode}
    (hp : s.get p = some (.dir mode)) : s'.get p = some (.dir mode) := by
  obtain ⟨node, hnode, hshape⟩ := h.get_some hp
  cases node <;> simp_all [Node.withContent]

/-- The target of a symbolic link is not content: it is the same in both stores. -/
theorem Store.SameShape.get_symlink (h : s.SameShape s') {target : String}
    (hp : s.get p = some (.symlink target)) : s'.get p = some (.symlink target) := by
  obtain ⟨node, hnode, hshape⟩ := h.get_some hp
  cases node <;> simp_all [Node.withContent]

/-- A regular file has the same mode in both stores, whatever it contains. -/
theorem Store.SameShape.get_file (h : s.SameShape s') {mode : Mode} {content : List UInt8}
    (hp : s.get p = some (.file mode content)) :
    ∃ content', s'.get p = some (.file mode content') := by
  obtain ⟨node, hnode, hshape⟩ := h.get_some hp
  cases node <;> simp_all [Node.withContent]

/-- What is a directory in one of the stores is one in the other, so a slash at the end of a path
means the same in both. -/
theorem Store.SameShape.after_refresh (h : s.SameShape s') {slash : Bool}
    {x : Except Errno Found} (hsound : ∀ f, x = .ok f → f.Sound s) :
    (x.map (Found.refresh s')).bind (Found.after slash) =
      (x.bind (Found.after slash)).map (Found.refresh s') := by
  cases x with
  | error e => rfl
  | ok f =>
    cases f with
    | missing parent name => cases slash <;> rfl
    | existing q node =>
      have hq : s.get q = some node := hsound _ rfl
      cases node with
      | file mode content =>
        -- A file fails the test for a slash, whatever it contains.
        obtain ⟨content', hq'⟩ := h.get_file hq
        cases slash <;> simp [Except.map, Except.bind, Found.refresh, Found.after, hq', Node.type]
      | dir mode =>
        simp [Except.map, Except.bind, Found.refresh, Found.after, h.get_dir hq, Node.type]
      | symlink target =>
        cases slash <;>
          simp [Except.map, Except.bind, Found.refresh, Found.after, h.get_symlink hq, Node.type]

/-- The walk takes the same way in a store of the same shape. By induction on the names, if this
holds of the walks behind symbolic links (`hlink`). The contents of files have no part in a walk, so
only the node that is found may differ, and `Found.refresh` looks it up again. `hsound` says that
this node is in the store. -/
private theorem walkFrom_sameShape (h : s.SameShape s') {follow : Bool}
    {onLink onLink' : Path → List Name → Except Errno Found}
    (hlink : ∀ cur rest, onLink' cur rest = (onLink cur rest).map (Found.refresh s'))
    (hsound : ∀ cur rest f, onLink cur rest = .ok f → f.Sound s) (cur : Path) (rest : List Name) :
    walkFrom proc s' follow onLink' cur rest =
      (walkFrom proc s follow onLink cur rest).map (Found.refresh s') := by
  induction rest generalizing cur with
  | nil =>
    unfold walkFrom
    cases hcur : s.get cur with
    | none => simp [h.get_none hcur, Except.map]
    | some node =>
      cases node with
      | file mode content =>
        obtain ⟨content', hcur'⟩ := h.get_file hcur
        simp [hcur', Except.map, Found.refresh]
      | dir mode => simp [h.get_dir hcur, Except.map, Found.refresh]
      | symlink target => simp [h.get_symlink hcur, Except.map, Found.refresh]
  | cons name rest ih =>
    unfold walkFrom
    cases hcur : s.get cur with
    | none => simp [h.get_none hcur, Except.map]
    | some node =>
      cases node with
      | file mode content =>
        obtain ⟨content', hcur'⟩ := h.get_file hcur
        simp [hcur', Except.map]
      | symlink target => simp [h.get_symlink hcur, Except.map]
      | dir mode =>
        simp only [h.get_dir hcur]
        split
        · rfl
        split
        · exact ih cur
        split
        · exact ih cur.dropLast
        -- The next node decides how the walk goes on.
        cases hnext : s.get (cur ++ [name]) with
        | none =>
          simp only [h.get_none hnext]
          split <;> rfl
        | some next =>
          cases next with
          | file mode' content =>
            obtain ⟨content', hnext'⟩ := h.get_file hnext
            simp only [hnext']
            exact ih (cur ++ [name])
          | dir mode' =>
            simp only [h.get_dir hnext]
            exact ih (cur ++ [name])
          | symlink target =>
            simp only [h.get_symlink hnext]
            split
            · simp [Except.map, Found.refresh, h.get_symlink hnext]
            · rw [hlink]
              exact h.after_refresh (hsound _ _)

/-- A walk reads kinds, modes and targets, and none of these is content. By induction on the number
of links that may still be followed, and inside on the names. -/
private theorem walk_sameShape (h : s.SameShape s') {follow : Bool} (links : Nat) (cur : Path)
    (rest : List Name) :
    walk proc s' follow links cur rest =
      (walk proc s follow links cur rest).map (Found.refresh s') := by
  induction links generalizing cur rest with
  | zero =>
    have hloop : ∀ (_ : Path) (_ : List Name), Except.error Errno.eloop =
        (Except.error Errno.eloop : Except Errno Found).map (Found.refresh s') := fun _ _ => rfl
    exact walkFrom_sameShape h hloop (fun _ _ _ hk => by cases hk) cur rest
  | succ links ih =>
    exact walkFrom_sameShape h ih (fun cur rest _ hk => walk_sound links cur rest hk) cur rest

/-- A path leads to the same place in a store of the same shape. -/
theorem resolve_sameShape (h : s.SameShape s') (follow : Bool) (p : Path) :
    resolve proc s' follow p = (resolve proc s follow p).map (Found.refresh s') :=
  walk_sameShape h 40 [] p

/-- Other content in a file leaves the shape as it is. This is the only edit that a write makes. -/
theorem Store.sameShape_put {mode : Mode} {old : List UInt8}
    (hp : s.get p = some (.file mode old)) (new : List UInt8) :
    s.SameShape (s.put p (.file mode new)) := by
  intro q
  by_cases hq : q = p
  · subst hq
    simp [Store.put, hp, Node.withContent]
  · simp [Store.put, hq]

/-- A path that leads to a file still does so when a file has other content. It may be the file
itself or another one. No link and no directory has changed, so the walk is the same, and only the
node at its end may be new. -/
theorem resolve_put_content {follow : Bool} {q q' : Path} {mode mode' : Mode}
    {content old : List UInt8}
    (h : resolve proc s follow p = .ok (.existing q (.file mode content)))
    (hq' : s.get q' = some (.file mode' old)) (new : List UInt8) :
    resolve proc (s.put q' (.file mode' new)) follow p =
      .ok (.existing q (.file mode (if q = q' then new else content))) := by
  have hq : s.get q = some (.file mode content) := resolve_sound h
  rw [resolve_sameShape (Store.sameShape_put hq' new), h]
  by_cases he : q = q'
  · subst he
    -- The path leads to the very file that is written.
    have hnode := hq.symm.trans hq'
    simp only [Option.some.injEq, Node.file.injEq] at hnode
    simp [Except.map, Found.refresh, Store.put, hnode.1]
  · simp [Except.map, Found.refresh, Store.put, he, hq]

/-- In particular when it is that file: the path still leads to it, and shows the new content. -/
theorem resolve_put_file {follow : Bool} {q : Path} {mode : Mode} {old : List UInt8}
    (h : resolve proc s follow p = .ok (.existing q (.file mode old))) (new : List UInt8) :
    resolve proc (s.put q (.file mode new)) follow p =
      .ok (.existing q (.file mode new)) := by
  rw [resolve_put_content h (resolve_sound h), if_pos rfl]

end Shape

section Permissions
variable {proc proc' : Process} {s : Store}

/-- The walk looks at the permissions only, so processes that may do the same are led to the same
place. -/
private theorem walkFrom_congr (h : ∀ bit mode, proc'.may bit mode = proc.may bit mode)
    (follow : Bool) (onLink : Path → List Name → Except Errno Found) (cur : Path)
    (rest : List Name) :
    walkFrom proc' s follow onLink cur rest = walkFrom proc s follow onLink cur rest := by
  induction rest generalizing cur with
  | nil => rfl
  | cons name rest ih => simp only [walkFrom, h, ih]

/-- A path leads to the same place for a process with the same permissions. -/
theorem resolve_eq_of_may (h : ∀ bit mode, proc'.may bit mode = proc.may bit mode) (follow : Bool)
    (p : Path) : resolve proc' s follow p = resolve proc s follow p := by
  have hwalk : ∀ links, walk proc' s follow links = walk proc s follow links := by
    intro links
    induction links with
    | zero => exact funext₂ fun cur rest => walkFrom_congr h follow _ cur rest
    | succ links ih =>
      simp only [walk, ih]
      exact funext₂ fun cur rest => walkFrom_congr h follow _ cur rest
  unfold resolve
  rw [hwalk]

end Permissions

section Descriptors
variable {d : Disk} {ref : FileRef} {old : List UInt8}

/-- Other content in a file leaves the descriptors as they are. A descriptor changes its file only
when an entry is removed or moved. -/
@[simp] theorem Disk.file?_setContent (d : Disk) (content : List UInt8) (ref : FileRef)
    (fd : Nat) : (d.setContent content ref).file? fd = d.file? fd := by
  -- The edit is a put, and it moves nothing.
  have hput : ∀ p node, (Edit.put p node).retarget d.orphans.length = id := by
    intro p node
    funext ref
    cases ref <;> rfl
  unfold Disk.setContent
  split
  · split
    · simp only [Disk.file?, Disk.commit, hput, id, List.getElem?_map]
      cases d.files[fd]? with
      | none => rfl
      | some f => cases f <;> rfl
    · rfl
  · rfl

/-- A file has the content that was put into it, whether it still has a path or is only held
open. -/
theorem Disk.content?_setContent (h : d.content? ref = some old) (new : List UInt8) :
    (d.setContent new ref).content? ref = some new := by
  cases ref with
  | named p =>
    cases hp : d.tree.1.get p with
    | none => simp [Disk.content?, hp] at h
    | some node =>
      cases node with
      | file mode content =>
        unfold Disk.setContent
        dsimp only
        split
        · simp [Disk.content?, Disk.commit, Edit.apply, Store.put]
        · -- There is a regular file at the path, so the other branch is not taken.
          rename_i hnot
          exact absurd hp (hnot mode content)
      | dir mode => simp [Disk.content?, hp] at h
      | symlink target => simp [Disk.content?, hp] at h
  | orphan i =>
    cases hi : d.orphans[i]? with
    | none => simp [Disk.content?, hi] at h
    | some node =>
      cases node with
      | file mode content => simp [Disk.content?, Disk.setContent, hi, Node.withContent]
      | dir mode => simp [Disk.content?, hi] at h
      | symlink target => simp [Disk.content?, hi] at h

/-- The other files have the content that they had, be they named or not. A file with an entry is in
the tree, and one without is kept with the disk for the descriptors that are still open. The two
kinds are told apart by their references. -/
theorem Disk.content?_setContent_of_ne {ref' : FileRef} (hne : ref' ≠ ref) (new : List UInt8) :
    (d.setContent new ref).content? ref' = d.content? ref' := by
  cases ref with
  | named p =>
    unfold Disk.setContent
    dsimp only
    split
    · cases ref' with
      | named q =>
        have hq : q ≠ p := by
          rintro rfl
          exact hne rfl
        simp [Disk.content?, Disk.commit, Edit.apply, Store.put, hq]
      -- A file without an entry is not in the tree, and a put drops none into it.
      | orphan i => simp [Disk.content?, Disk.commit, Edit.dropped]
    · rfl
  | orphan i =>
    cases ref' with
    | named q => rfl
    | orphan j =>
      have hj : i ≠ j := by
        rintro rfl
        exact hne rfl
      simp [Disk.content?, Disk.setContent, hj]

end Descriptors

end Library.Posix
