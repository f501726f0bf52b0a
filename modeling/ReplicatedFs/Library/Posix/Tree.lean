import Mathlib.Data.Finset.Image
import Mathlib.Data.List.Infix
import Mathlib.Logic.Function.Basic

/-!
# `ReplicatedFs.Library.Posix.Tree`: directory trees

A `Store` maps absolute paths to nodes. It is finite, so that a directory can be tested for
being empty, and two stores with the same nodes are equal. A `Tree` is a store in which the root
and every parent is a directory.

A system call changes the tree by one `Edit`. `Edit.Allowed` is what a call checks before it
makes one, and an allowed edit leads from a tree to a tree (`Edit.Allowed.isTree`).
-/

set_option autoImplicit false

namespace Library.Posix

/-- The name of a directory entry. -/
abbrev Name := String

/-- An absolute path, as the names from the root. -/
abbrev Path := List Name

/-- No name of the path is one that the calls give a meaning of its own. -/
def Normal (p : Path) : Prop := ∀ n ∈ p, n ≠ "." ∧ n ≠ ".."

instance (p : Path) : Decidable (Normal p) := inferInstanceAs (Decidable (∀ n ∈ p, _))

/-- The mode bits of `stat`, without the file type. -/
abbrev Mode := UInt32

/-- What a path leads to. -/
inductive Node
  | file (mode : Mode) (content : List UInt8)
  | dir (mode : Mode)
  | symlink (target : String)
  deriving DecidableEq, Repr

/-- The types of nodes. -/
inductive FileType
  | regular
  | directory
  | symlink
  deriving DecidableEq, Repr

/-- The type of a node. -/
def Node.type : Node → FileType
  | .file _ _ => .regular
  | .dir _ => .directory
  | .symlink _ => .symlink

/-- The nodes by their paths. `names` are the paths with a node. -/
structure Store where
  get : Path → Option Node
  names : Finset Path
  mem_names : ∀ p, p ∈ names ↔ (get p).isSome

/-- Stores with the same nodes are the same. The list of names is determined by the nodes. -/
@[ext] theorem Store.ext {s s' : Store} (h : s.get = s'.get) : s = s' := by
  obtain ⟨get, names, hmem⟩ := s
  obtain ⟨get', names', hmem'⟩ := s'
  obtain rfl : get = get' := h
  obtain rfl : names = names' := by
    ext p
    rw [hmem, hmem']
  rfl

/-- The path is a directory. -/
def Store.IsDir (s : Store) (p : Path) : Prop := ∃ mode, s.get p = some (.dir mode)

/-- The root is a directory, and so is whatever has an entry. -/
structure Store.IsTree (s : Store) : Prop where
  root : s.IsDir []
  parents : ∀ p n, (s.get (p ++ [n])).isSome → s.IsDir p

/-- A directory tree. -/
abbrev Tree := { s : Store // s.IsTree }

/-- No node is below the path. -/
def Store.isLeaf (s : Store) (p : Path) : Bool := decide (∀ q ∈ s.names, p <+: q → q = p)

/-- `isLeaf` looks at the listed paths, and these are all that have a node. So it decides the
statement about all paths. -/
theorem Store.isLeaf_iff {s : Store} {p : Path} :
    s.isLeaf p = true ↔ ∀ q, p <+: q → q ≠ p → s.get q = none := by
  simp only [Store.isLeaf, decide_eq_true_eq]
  constructor
  · intro h q hpq hne
    by_contra hsome
    exact hne (h q ((s.mem_names q).mpr (Option.isSome_iff_ne_none.mpr hsome)) hpq)
  · intro h q hq hpq
    by_contra hne
    rw [s.mem_names, h q hpq hne] at hq
    cases hq

/-- In a tree, only a directory has something below it. So everything else can be removed or
replaced without further tests. -/
theorem Store.IsTree.isLeaf_of_not_dir {s : Store} (h : s.IsTree) {p : Path}
    (hp : ¬ s.IsDir p) : s.isLeaf p = true := by
  refine Store.isLeaf_iff.mpr fun q hpq hne => ?_
  obtain ⟨rest, rfl⟩ := hpq
  -- Induction on what follows `p`, from its end.
  induction rest using List.reverseRecOn with
  | nil => exact absurd (List.append_nil p) hne
  | append_singleton rest n ih =>
    by_contra hsome
    have hdir : s.IsDir (p ++ rest) := by
      refine h.parents _ n ?_
      rw [List.append_assoc]
      exact Option.isSome_iff_ne_none.mpr hsome
    by_cases hrest : p ++ rest = p
    · exact hp (hrest ▸ hdir)
    · obtain ⟨mode, hmode⟩ := hdir
      rw [ih hrest] at hmode
      cases hmode

section Operations
variable (s : Store)

/-- The store with a node at the path. -/
def Store.put (p : Path) (node : Node) : Store where
  get := Function.update s.get p (some node)
  names := insert p s.names
  mem_names q := by
    by_cases hq : q = p
    · simp [hq]
    · simp [hq, s.mem_names]

/-- The store without the node at the path. -/
def Store.delete (p : Path) : Store where
  get := Function.update s.get p none
  names := s.names.erase p
  mem_names q := by
    by_cases hq : q = p
    · simp [hq]
    · simp [hq, s.mem_names]

/-- The node that is at `q` after `old` was moved to `new`, with all that is below it. -/
def Store.moved (old new q : Path) : Option Node :=
  if new <+: q then s.get (old ++ q.drop new.length)
  else if old <+: q then none
  else s.get q

/-- The store with all of `old` moved to `new`. What was at `new` is gone. -/
def Store.move (old new : Path) : Store where
  get := s.moved old new
  names := (s.names.filter (old <+: ·)).image (fun q => new ++ q.drop old.length) ∪
    s.names.filter fun q => ¬ old <+: q ∧ ¬ new <+: q
  mem_names q := by
    simp only [Finset.mem_union, Finset.mem_image, Finset.mem_filter, Store.moved]
    by_cases hnew : new <+: q
    · obtain ⟨rest, rfl⟩ := hnew
      -- A path below `new` comes from the one path below `old` with the same rest.
      have hiff : (∃ k, (k ∈ s.names ∧ old <+: k) ∧ new ++ k.drop old.length = new ++ rest) ↔
          old ++ rest ∈ s.names := by
        constructor
        · rintro ⟨_, ⟨hk, k, rfl⟩, heq⟩
          simp only [List.drop_left, List.append_cancel_left_eq] at heq
          rwa [← heq]
        · intro hk
          exact ⟨old ++ rest, ⟨hk, List.prefix_append _ _⟩, by simp⟩
      rw [hiff, s.mem_names, if_pos (List.prefix_append _ _)]
      simp
    · have hno : ¬ ∃ k, (k ∈ s.names ∧ old <+: k) ∧ new ++ k.drop old.length = q := by
        rintro ⟨k, -, rfl⟩
        exact hnew (List.prefix_append _ _)
      simp only [hno, false_or, hnew, if_false, not_false_eq_true, and_true]
      by_cases hold : old <+: q
      · simp [hold]
      · simp [hold, s.mem_names]

end Operations

/-- Putting a node changes one path, whether there was a node or not. -/
@[simp] theorem Store.get_put (s : Store) (p : Path) (node : Node) :
    (s.put p node).get = Function.update s.get p (some node) := rfl

/-- Deleting a node changes one path. What is below it stays, so the callers see to it that there is
nothing. -/
@[simp] theorem Store.get_delete (s : Store) (p : Path) :
    (s.delete p).get = Function.update s.get p none := rfl

/-- Moving a node takes everything below it along. What was at the new path is gone. -/
@[simp] theorem Store.get_move (s : Store) (old new : Path) :
    (s.move old new).get = s.moved old new := rfl

/-- One change of the store. -/
inductive Edit
  | keep
  | put (path : Path) (node : Node)
  | delete (path : Path)
  | move (old new : Path)
  deriving DecidableEq, Repr

/-- The store after the edit. -/
def Edit.apply (s : Store) : Edit → Store
  | .keep => s
  | .put p node => s.put p node
  | .delete p => s.delete p
  | .move old new => s.move old new

/-- The path can have a node: it is an entry of a directory. The root has to be one itself. -/
def Store.HasParent (s : Store) (p : Path) (isDir : Prop) : Prop :=
  (p = [] ∧ isDir) ∨ ∃ parent n, p = parent ++ [n] ∧ s.IsDir parent

/-- What a call checks before it makes the edit. -/
def Edit.Allowed (s : Store) : Edit → Prop
  | .keep => True
  | .put p node => s.HasParent p (∃ mode, node = .dir mode) ∧
      ((∃ mode, node = .dir mode) ∨ s.isLeaf p = true)
  | .delete p => p ≠ [] ∧ s.isLeaf p = true
  | .move old new => ¬ old <+: new ∧ ¬ new <+: old ∧ s.HasParent new False

section Allowed
variable {s : Store}

/-- The parent of an entry lies between a path and the entry, or is the path before. -/
private theorem prefix_concat {p q : Path} {n : Name} (h : p <+: q ++ [n]) :
    p = q ++ [n] ∨ p <+: q := by
  rcases List.prefix_concat_iff.mp h with heq | hpre
  · exact .inl heq
  · exact .inr hpre

/-- A node can be put where its parent is a directory. It may only replace what has something below
it when it is a directory too. The parent of every other node is the same as before, or it is the
new node. -/
private theorem isTree_put (h : s.IsTree) {p : Path} {node : Node}
    (hparent : s.HasParent p (∃ mode, node = .dir mode))
    (hleaf : (∃ mode, node = .dir mode) ∨ s.isLeaf p = true) : (s.put p node).IsTree := by
  have hkeep : ∀ q, s.IsDir q → (∃ mode, node = .dir mode) ∨ q ≠ p → (s.put p node).IsDir q := by
    rintro q ⟨mode, hmode⟩ hq
    by_cases hqp : q = p
    · obtain ⟨mode', rfl⟩ := hq.resolve_right (not_not.mpr hqp)
      exact ⟨mode', by simp [hqp]⟩
    · exact ⟨mode, by simp [hqp, hmode]⟩
  constructor
  · by_cases hp : p = []
    · subst hp
      rcases hparent with ⟨-, mode, rfl⟩ | ⟨parent, n, heq, -⟩
      · exact ⟨mode, by simp⟩
      · simp at heq
    · exact hkeep [] h.root (.inr (Ne.symm hp))
  · intro q n hsome
    by_cases hqn : q ++ [n] = p
    · -- The new entry has its parent, which is another path.
      rcases hparent with ⟨hnil, -⟩ | ⟨parent, n', heq, hdir⟩
      · simp [hnil] at hqn
      · obtain ⟨rfl, -⟩ := List.append_inj' (hqn.trans heq) rfl
        refine hkeep q hdir (.inr fun hqp => ?_)
        have hlen := congrArg List.length (hqn.trans hqp.symm)
        simp at hlen
    · have hsome' : (s.get (q ++ [n])).isSome := by simpa [hqn] using hsome
      refine hkeep q (h.parents q n hsome') ?_
      rcases hleaf with hdir | hleaf
      · exact .inl hdir
      · right
        rintro rfl
        rw [Store.isLeaf_iff.mp hleaf (q ++ [n]) (List.prefix_append _ _) (by simp)] at hsome'
        cases hsome'

/-- A node without anything below it can go. The root stays, as a tree has one. -/
private theorem isTree_delete (h : s.IsTree) {p : Path} (hp : p ≠ [])
    (hleaf : s.isLeaf p = true) : (s.delete p).IsTree := by
  have hkeep : ∀ q, s.IsDir q → q ≠ p → (s.delete p).IsDir q := by
    rintro q ⟨mode, hmode⟩ hq
    exact ⟨mode, by simp [hq, hmode]⟩
  refine ⟨hkeep [] h.root (Ne.symm hp), fun q n hsome => ?_⟩
  by_cases hqn : q ++ [n] = p
  · simp [hqn] at hsome
  · have hsome' : (s.get (q ++ [n])).isSome := by simpa [hqn] using hsome
    refine hkeep q (h.parents q n hsome') ?_
    rintro rfl
    rw [Store.isLeaf_iff.mp hleaf (q ++ [n]) (List.prefix_append _ _) (by simp)] at hsome'
    cases hsome'

/-- A part of the tree can be moved to where its new parent is a directory, and neither into itself
nor onto something above it. The parents of the moved nodes move along with them, except that of the
topmost one, which `hparent` provides. -/
private theorem isTree_move (h : s.IsTree) {old new : Path} (hold : ¬ old <+: new)
    (hnew : ¬ new <+: old) (hparent : s.HasParent new False) : (s.move old new).IsTree := by
  have hkeep : ∀ q, s.IsDir q → ¬ old <+: q → ¬ new <+: q → (s.move old new).IsDir q := by
    rintro q ⟨mode, hmode⟩ hoq hnq
    exact ⟨mode, by simp [Store.moved, hoq, hnq, hmode]⟩
  constructor
  · refine hkeep [] h.root (fun hnil => hold ?_) (fun hnil => hnew ?_)
    · rw [List.prefix_nil.mp hnil]
      exact List.nil_prefix
    · rw [List.prefix_nil.mp hnil]
      exact List.nil_prefix
  · intro q n hsome
    simp only [Store.get_move, Store.moved] at hsome
    by_cases hnq : new <+: q ++ [n]
    · rcases prefix_concat hnq with heq | hpre
      · -- The moved node itself.
        rcases hparent with ⟨-, hfalse⟩ | ⟨parent, n', heq', hdir⟩
        · exact hfalse.elim
        · obtain ⟨rfl, -⟩ := List.append_inj' (heq.symm.trans heq') rfl
          refine hkeep q hdir (fun hoq => hold ?_) (fun hnq' => ?_)
          · rw [heq]
            exact hoq.trans (List.prefix_append _ _)
          · have hlen := hnq'.length_le
            rw [heq, List.length_append, List.length_singleton] at hlen
            omega
      · -- Below the moved node, the parent moved along.
        obtain ⟨rest, rfl⟩ := hpre
        rw [if_pos hnq, List.append_assoc, List.drop_left] at hsome
        obtain ⟨mode, hmode⟩ := h.parents (old ++ rest) n (by rwa [List.append_assoc])
        exact ⟨mode, by simp [Store.moved, hmode]⟩
    · rw [if_neg hnq] at hsome
      by_cases hoq : old <+: q ++ [n]
      · simp [hoq] at hsome
      · rw [if_neg hoq] at hsome
        exact hkeep q (h.parents q n hsome)
          (fun hq => hoq (hq.trans (List.prefix_append _ _)))
          (fun hq => hnq (hq.trans (List.prefix_append _ _)))

/-- An allowed edit leads from a tree to a tree. With this the type of trees is closed under all
calls. -/
theorem Edit.Allowed.isTree {e : Edit} (ha : e.Allowed s) (h : s.IsTree) :
    (e.apply s).IsTree := by
  cases e with
  | keep => exact h
  | put p node => exact isTree_put h ha.1 ha.2
  | delete p => exact isTree_delete h ha.1 ha.2
  | move old new => exact isTree_move h ha.1 ha.2.1 ha.2.2

end Allowed

/-- A new entry of a directory is allowed, whatever node it is. There is nothing below a path
without a node. -/
theorem allowed_new {s : Store} (hs : s.IsTree) {parent : Path} {n : Name}
    (hdir : s.IsDir parent) (hnone : s.get (parent ++ [n]) = none) (node : Node) :
    (Edit.put (parent ++ [n]) node).Allowed s := by
  refine ⟨.inr ⟨parent, n, rfl, hdir⟩, .inr (hs.isLeaf_of_not_dir ?_)⟩
  rintro ⟨mode, hmode⟩
  rw [hnone] at hmode
  cases hmode

/-- A node of the type is a directory, with some mode. The types are what the outline and the kinds
show. -/
theorem Store.isDir_of_type {s : Store} {p : Path}
    (h : (s.get p).map Node.type = some .directory) : s.IsDir p := by
  obtain ⟨node, hnode, htype⟩ := Option.map_eq_some_iff.mp h
  cases node with
  | dir mode => exact ⟨mode, hnode⟩
  | _ => cases htype

/-- The tree with nothing but its root. -/
def rootTree : Tree where
  val :=
    { get := Function.update (fun _ => none) [] (some (.dir 0o755))
      names := {[]}
      mem_names := fun p => by by_cases hp : p = [] <;> simp [hp] }
  property :=
    { root := ⟨0o755, rfl⟩
      parents := fun p n h => by simp at h }

/-- The tree with a new entry of a directory. Where there is no place for it, nothing changes. -/
def Tree.add (t : Tree) (parent : Path) (n : Name) (node : Node) : Tree :=
  if h : (t.1.get parent).map Node.type = some .directory ∧ t.1.get (parent ++ [n]) = none then
    ⟨t.1.put (parent ++ [n]) node,
      (allowed_new t.2 (Store.isDir_of_type h.1) h.2 node).isTree t.2⟩
  else t

end Library.Posix
