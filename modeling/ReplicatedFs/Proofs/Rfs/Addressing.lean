import ReplicatedFs.Library.Posix.Names
import ReplicatedFs.Rfs.Request

/-!
# `ReplicatedFs.Proofs.Rfs.Addressing`: the paths that the operations put into their requests

An inode is given by the entry names that lead to it from the root of the mount, and
`Inode.Path` of go-fuse is their `slashPath`. `Operation.objects` says which objects an
operation of a directory node is about, and `Addresses` that the request of its call names
them.

`addresses_iff`: the request of every operation does so at the root of the mount. Below it,
`Rename` puts the path of this node between the new parent and the new name, and `Link` puts it
before the path of the target.
-/

set_option autoImplicit false

namespace ReplicatedFs.Rfs

open ReplicatedFs.Protobuf
open Library.Posix

/-- A node of the inode tree, by the names from the root of the mount. -/
abbrev Inode := List EntryName

/-- The operations of a node that send paths made of entry names. -/
inductive Operation
  | create (name : EntryName) (flags mode : UInt32)
  | mkdir (name : EntryName) (mode : UInt32)
  | rename (name : EntryName) (newParent : Inode) (newName : EntryName) (flags : UInt32)
  | rmdir (name : EntryName)
  | setattr (mode : UInt32)
  | link (target : Inode) (name : EntryName)
  | unlink (name : EntryName)

/-- The call of the operation on the node `r`. Another node is passed by its path. -/
def Operation.call (r : Inode) : Operation → Call
  | .create name flags mode => .node (slashPath r) (.create name.name flags mode)
  | .mkdir name mode => .node (slashPath r) (.mkdir name.name mode)
  | .rename name newParent newName flags =>
    .node (slashPath r) (.rename name.name (slashPath newParent) newName.name flags)
  | .rmdir name => .node (slashPath r) (.rmdir name.name)
  | .setattr mode => .node (slashPath r) (.setattr (some mode))
  | .link target name => .node (slashPath r) (.link (slashPath target) name.name)
  | .unlink name => .node (slashPath r) (.unlink name.name)

/-- The objects that the operation is about: the one it acts on, and the one it makes if that is
another one. -/
def Operation.objects (r : Inode) : Operation → Inode × Option Inode
  | .create name _ _ | .mkdir name _ | .rmdir name | .unlink name => (r ++ [name], none)
  | .rename name newParent newName _ => (r ++ [name], some (newParent ++ [newName]))
  | .setattr _ => (r, none)
  | .link target name => (target, some (r ++ [name]))

/-- The operation sends the path of this node together with the one of another node. -/
def Operation.namesNode : Operation → Bool
  | .rename _ _ _ _ | .link _ _ => true
  | _ => false

/-- The request names the objects of the operation. -/
def Addresses (r : Inode) (op : Operation) (md : Metadata) : Prop :=
  md.relativePath = slashPath (op.objects r).1 ∧
    md.newRelativePath = (op.objects r).2.elim "" slashPath

section Addressing
variable (s : Mount) (r : Inode)

/-- `relativePath` of an entry of the node. It joins with a slash, and at the root of the mount it
adds none. -/
theorem relativePath_entry (name : EntryName) :
    relativePath (slashPath r) name.name = slashPath (r ++ [name]) := by
  rw [relativePath, ← join_slashPath, slashPath_singleton]

/-- The path of a node below the mirror directory. The names of entries are not special, so
`filepath.Join` only appends them. -/
theorem path_slashPath (m : Mirror) : m.path (slashPath r) = m.dir ++ EntryName.values r := by
  rw [Mirror.path, components_slashPath]
  -- Every name is added to the path so far.
  generalize m.dir = dir
  induction r generalizing dir with
  | nil => simp [EntryName.values]
  | cons n r ih =>
    have hstep : cleanStep dir n.name = dir ++ [n.name] := by
      rw [cleanStep, if_neg n.ne_dot, if_neg n.ne_dotdot]
    show (EntryName.values r).foldl cleanStep (cleanStep dir n.name) = _
    rw [hstep, ih, List.append_assoc]
    rfl

/-- The path of an entry, as go-fuse builds it. It is the one that the mirror uses, and so a request
names the file that the operation works on. -/
theorem loopbackPath_entry (m : Mirror) (name : EntryName) :
    loopbackPath m (slashPath r) name.name = m.dir ++ EntryName.values (r ++ [name]) := by
  rw [loopbackPath, components_name, path_slashPath]
  simp [cleanStep, name.ne_dot, name.ne_dotdot, EntryName.values]

/-- The metadata of the request of an operation. -/
def Operation.metadata : Operation → Metadata
  | .create name _ mode | .mkdir name mode =>
    { relativePath := slashPath (r ++ [name]), mode }
  | .rename name newParent newName _ =>
    { relativePath := slashPath (r ++ [name])
      newRelativePath := slashPath (newParent ++ (r ++ [newName])) }
  | .rmdir name | .unlink name => { relativePath := slashPath (r ++ [name]) }
  | .setattr mode => { relativePath := slashPath r, mode }
  | .link target name =>
    { relativePath := slashPath (r ++ target), newRelativePath := slashPath (r ++ [name]) }

/-- What the call of an operation sends: the metadata, with the paths of the objects of the
operation. -/
theorem request?_metadata (op : Operation) :
    (s.request? (op.call r)).bind Request.metadata = some (op.metadata r) := by
  cases op with
  | link target name =>
    simp only [Operation.call, Mount.request?, Mount.guarded?, Guarded.link, Option.map_some,
      Option.bind_some, relativePath_entry, Operation.metadata]
    rw [relativePath, join_slashPath]
  | _ =>
    simp only [Operation.call, Mount.request?, Mount.guarded?, Guarded.create, Guarded.mkdir,
      Guarded.rename, Guarded.rmdir, Guarded.setattr, Guarded.unlink, Option.map_some,
      Option.bind_some, relativePath_entry, join_slashPath, Operation.metadata]

/-- At the root of the mount, or without another node, the request names the objects of the
operation. -/
theorem addresses_of_root {op : Operation} (h : op.namesNode = false ∨ r = []) :
    Addresses r op (op.metadata r) := by
  cases op with
  | rename name newParent newName flags =>
    rcases h with h | rfl
    · cases h
    · exact ⟨rfl, rfl⟩
  | link target name =>
    rcases h with h | rfl
    · cases h
    · exact ⟨rfl, rfl⟩
  | _ => exact ⟨rfl, rfl⟩

/-- Elsewhere it does not: the path of the node is in it once too often. -/
theorem root_of_addresses {op : Operation} (h : Addresses r op (op.metadata r)) :
    op.namesNode = false ∨ r = [] := by
  cases op with
  | rename name newParent newName flags =>
    have hpath : newParent ++ (r ++ [newName]) = newParent ++ [newName] :=
      slashPath_injective h.2
    exact .inr (by simpa using hpath)
  | link target name =>
    have hpath : r ++ target = target := slashPath_injective h.1
    exact .inr (by simpa using hpath)
  | _ => exact .inl rfl

end Addressing

/-- On every mount and for every node `r`, the request of an operation names the objects that
the operation is about exactly when it is neither `Rename` nor `Link`, or `r` is the root of the
mount. -/
theorem addresses_iff (s : Mount) (r : Inode) (op : Operation) :
    (∃ req md, s.request? (op.call r) = some req ∧ req.metadata = some md ∧
      Addresses r op md) ↔ op.namesNode = false ∨ r = [] := by
  obtain ⟨req, hreq, hmd⟩ := Option.bind_eq_some_iff.mp (request?_metadata s r op)
  constructor
  · rintro ⟨req', md, hreq', hmd', h⟩
    obtain rfl : req = req' := Option.some.inj (hreq.symm.trans hreq')
    obtain rfl : op.metadata r = md := Option.some.inj (hmd.symm.trans hmd')
    exact root_of_addresses r h
  · intro h
    exact ⟨req, _, hreq, hmd, addresses_of_root r h⟩

/-- The directory `d` and two entries of it. -/
def dirEntry : EntryName := ⟨"d", by decide, by decide, by decide, by decide⟩
def oldEntry : EntryName := ⟨"f", by decide, by decide, by decide, by decide⟩
def newEntry : EntryName := ⟨"g", by decide, by decide, by decide, by decide⟩

/-- `Rename` of `d/f` to `d/g` sends the new path `d/d/g`, and a `Link` in `d` to `d/f` sends the
target `d/d/f`. In both cases a path from the root of the mount is joined to the path of the node
once more. In the root itself this goes unnoticed. -/
theorem request_below_root :
    ((({ disk := { tree := someTree } } : Mount).request?
        (Operation.call [dirEntry] (.rename oldEntry [dirEntry] newEntry 0))).bind
          Request.metadata = some { relativePath := "d/f", newRelativePath := "d/d/g" } ∧
      ¬ Addresses [dirEntry] (.rename oldEntry [dirEntry] newEntry 0)
        { relativePath := "d/f", newRelativePath := "d/d/g" }) ∧
    (({ disk := { tree := someTree } } : Mount).request?
        (Operation.call [dirEntry] (.link [dirEntry, oldEntry] newEntry))).bind
          Request.metadata = some { relativePath := "d/d/f", newRelativePath := "d/g" } ∧
      ¬ Addresses [dirEntry] (.link [dirEntry, oldEntry] newEntry)
        { relativePath := "d/d/f", newRelativePath := "d/g" } := by
  -- The metadata can be computed without the mount.
  simp only [request?_metadata]
  exact ⟨⟨by decide, fun h => absurd h.2 (by decide)⟩, by decide,
    fun h => absurd h.1 (by decide)⟩

end ReplicatedFs.Rfs
