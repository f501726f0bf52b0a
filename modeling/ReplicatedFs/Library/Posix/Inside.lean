import ReplicatedFs.Library.Posix.Outline

/-!
# `ReplicatedFs.Library.Posix.Inside`: paths below a directory

A process that can go down to a directory (`Accessible`) finds below it what its outline shows,
as long as no symbolic link is on the way (`inside_of_plain`). `isEmptyDir` and the like are then
the same in the outline, and they depend on what is around the path only.
-/

set_option autoImplicit false

namespace Library.Posix

/-- The process can search the directory at the path. -/
def searchable (proc : Process) (s : Store) (p : Path) : Bool :=
  match s.get p with
  | some (.dir mode) => proc.may maySearch mode
  | _ => false

/-- The path is a directory, and the process can search all directories above it. -/
def Accessible (proc : Process) (s : Store) (dir : Path) : Prop :=
  (s.get dir).map Node.type = some .directory ∧
    ∀ q ∈ dir.inits, q ≠ dir → searchable proc s q = true

instance (proc : Process) (s : Store) (dir : Path) : Decidable (Accessible proc s dir) :=
  inferInstanceAs (Decidable (_ ∧ ∀ q ∈ dir.inits, _))

/-- A path is searchable when a directory is there that the process may search. -/
theorem searchable_eq_true {proc : Process} {s : Store} {p : Path} :
    searchable proc s p = true ↔
      ∃ mode, s.get p = some (.dir mode) ∧ proc.may maySearch mode = true := by
  unfold searchable
  split
  · rename_i mode hget
    simp [hget]
  · rename_i hnot
    simp only [Bool.false_eq_true, false_iff]
    rintro ⟨mode, hget, -⟩
    exact hnot mode hget

section Descent
variable {proc : Process} {s : Store} {follow : Bool} {dir q : Path}

/-- Everything on the way to an accessible directory is a directory. -/
theorem Accessible.isDir (h : Accessible proc s dir) {cur : Path} (hcur : cur <+: dir) :
    ∃ mode, s.get cur = some (.dir mode) := by
  by_cases heq : cur = dir
  · rw [heq]
    exact Store.isDir_of_type h.1
  · obtain ⟨mode, hget, -⟩ := searchable_eq_true.mp
      (h.2 cur ((List.mem_inits _ _).mpr hcur) heq)
    exact ⟨mode, hget⟩

/-- The walk goes down to the directory. On the way there are directories only, which the process
may search. -/
private theorem walkFrom_descend (follow : Bool) (h : Accessible proc s dir) (hnormal : Normal dir)
    (onLink : Path → List Name → Except Errno Found) (rest : List Name) (cur : Path)
    (hdir : cur ++ rest = dir) :
    walkFrom proc s follow onLink cur (rest ++ q) = walkFrom proc s follow onLink dir q := by
  induction rest generalizing cur with
  | nil =>
    rw [List.append_nil] at hdir
    rw [hdir, List.nil_append]
  | cons name rest ih =>
    have hnext : cur ++ [name] ++ rest = dir := by rw [← hdir, List.append_assoc]; rfl
    -- There is a name left, so the walk has not come to the directory yet.
    have hne : cur ≠ dir := by
      intro heq
      rw [heq] at hdir
      simp at hdir
    obtain ⟨mode, hcur, hmay⟩ := searchable_eq_true.mp
      (h.2 cur ((List.mem_inits _ _).mpr ⟨name :: rest, hdir⟩) hne)
    obtain ⟨mode', hchild⟩ := h.isDir ⟨rest, hnext⟩
    obtain ⟨hdot, hdots⟩ := hnormal name (by rw [← hdir]; simp)
    rw [List.cons_append, walkFrom, hcur]
    simp only [hmay, Bool.true_eq_false, if_false, hdot, hdots, hchild]
    exact ih (cur ++ [name]) hnext

/-- A walk below the directory goes as it does in the outline, where no link is on the way. By
induction on the rest of the names, with what was walked so far in `cur`. `hnormal` excludes the
names `.` and `..`, and `hplain` the links that would be followed, so the two functions for links
are never called. -/
private theorem walkFrom_outline (proc : Process) (hnormal : Normal q)
    (hplain : (s.outline dir).Plain follow q)
    (onLink onLink' : Path → List Name → Except Errno Found) (rest : List Name) (cur : Path)
    (hq : cur ++ rest = q) :
    (walkFrom proc s follow onLink (dir ++ cur) rest).map Found.outline =
      (walkFrom proc (s.outline dir) follow onLink' cur rest).map (Found.inDir dir) := by
  induction rest generalizing cur with
  | nil =>
    unfold walkFrom
    rw [Store.get_outline]
    cases s.get (dir ++ cur) <;> rfl
  | cons name rest ih =>
    have hnext : cur ++ [name] ++ rest = q := by rw [← hq, List.append_assoc]; rfl
    obtain ⟨hdot, hdots⟩ := hnormal name (by rw [← hq]; simp)
    have hchild : (s.outline dir).get (cur ++ [name]) =
        (s.get (dir ++ cur ++ [name])).map (Node.withContent []) := by
      rw [Store.get_outline, List.append_assoc]
    unfold walkFrom
    rw [Store.get_outline, hchild]
    cases hcur : s.get (dir ++ cur) with
    | none => rfl
    | some node =>
      cases node with
      | file mode content => rfl
      | symlink target => rfl
      | dir mode =>
        simp only [Option.map_some, Node.withContent, if_neg hdot, if_neg hdots]
        split
        · rfl
        cases hget : s.get (dir ++ cur ++ [name]) with
        | none =>
          simp only [Option.map_none]
          split <;> rfl
        | some node' =>
          cases node' with
          | file mode' content =>
            rw [List.append_assoc]
            exact ih (cur ++ [name]) hnext
          | dir mode' =>
            rw [List.append_assoc]
            exact ih (cur ++ [name]) hnext
          | symlink target =>
            -- The link is at the end of the path, and is not followed.
            rw [hget] at hchild
            obtain ⟨rfl, rfl⟩ := hplain.end_of_link hnext hchild
            simp [Except.map, Found.outline, Found.inDir, Node.withContent]

/-- Without links on its way, a path stays inside an accessible directory. -/
theorem inside_of_plain (h : Accessible proc s dir) (hdir : Normal dir) (hq : Normal q)
    (hplain : (s.outline dir).Plain follow q) : Inside proc s follow dir q := by
  have hdown := walkFrom_descend (q := q) follow h hdir (walk proc s follow 39) dir [] rfl
  have hwalk := walkFrom_outline proc hq hplain (walk proc s follow 39)
    (walk proc (s.outline dir) follow 39) q [] rfl
  rw [List.append_nil] at hwalk
  show (walkFrom proc s follow (walk proc s follow 39) [] (dir ++ q)).map Found.outline = _
  rw [hdown]
  exact hwalk

end Descent

section Shown
variable {proc : Process} {s s' : Store} {dir p q : Path}

/-- `lstat` shows the same in the outline, up to the content of a file, which none of these tests
reads. -/
theorem Inside.shown (h : Inside proc s false dir q) :
    isLink proc s (dir ++ q) = isLink proc (s.outline dir) q ∧
      isNonDir proc s (dir ++ q) = isNonDir proc (s.outline dir) q ∧
      isEmptyDir proc s (dir ++ q) = isEmptyDir proc (s.outline dir) q := by
  have hway := h.way
  unfold isLink isNonDir isEmptyDir lstat statAt
  generalize resolve proc s false (dir ++ q) = x at hway ⊢
  generalize resolve proc (s.outline dir) false q = x' at hway ⊢
  cases hway with
  | error err => exact ⟨rfl, rfl, rfl⟩
  | missing parent name => exact ⟨rfl, rfl, rfl⟩
  | existing k node =>
    cases node with
    -- Here what is below the path counts, and the outline has all of it.
    | dir mode => exact ⟨rfl, rfl, Store.isLeaf_outline.symm⟩
    | file mode content => exact ⟨rfl, rfl, rfl⟩
    | symlink target => exact ⟨rfl, rfl, rfl⟩

variable (hnormal : Normal p) (hplain : s.Plain false p)
  (heq : Set.EqOn s.get s'.get (around p))
include hnormal hplain heq

/-- Whether a path is a symbolic link depends on the nodes around it only. -/
theorem isLink_congr : isLink proc s p = isLink proc s' p := by
  unfold isLink
  rw [lstat_congr hnormal hplain heq]

/-- The same for a path that is something other than a directory. -/
theorem isNonDir_congr : isNonDir proc s p = isNonDir proc s' p := by
  unfold isNonDir
  rw [lstat_congr hnormal hplain heq]

/-- And for an empty directory. This is where the nodes below the path are looked at. -/
theorem isEmptyDir_congr : isEmptyDir proc s p = isEmptyDir proc s' p := by
  unfold isEmptyDir
  rw [← lstat_congr hnormal hplain heq]
  unfold lstat statAt
  cases hf : resolve proc s false p with
  | error err => rfl
  | ok f =>
    cases f with
    | missing parent name => rfl
    | existing k node =>
      obtain rfl : k = p := resolve_at hnormal hplain hf
      cases node with
      -- What is below the path is around it.
      | dir mode => exact isLeaf_congr heq
      | _ => rfl

end Shown

end Library.Posix
