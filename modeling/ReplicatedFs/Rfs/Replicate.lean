import ReplicatedFs.Mirror.Consult
import ReplicatedFs.P2p.Host

/-!
# `ReplicatedFs.Rfs.Replicate`: asking for permission

The model of `rfs/replicate.go`. `replicate` asks `Mirror.Consult` first and the `Replicator`
second. The answer of the `Replicator` is an input, `none` for nil. The error numbers are the
ones that the FUSE operations return.
-/

set_option autoImplicit false

namespace ReplicatedFs.Rfs

open Library.Posix Protobuf P2p

/-- `errnoFromProtobufError`. -/
def errnoFromProtobufError : ResponseError → Errno
  | .unknown => .eperm
  | .alreadyExists => .eexist
  | .doesNotExist => .enoent
  | .transactionConflict => .eperm
  | .notADirectory => .enotdir
  | .notAFile => .ebadf
  | .invalidMode => .einval
  | .unrecognized _ => .eperm

/-- The switch on the cause of an error of `Replicate`. -/
def errnoFromReplicateError : ReplicateError → Errno
  | .context .canceled => .ecanceled
  | .context .deadlineExceeded => .etimedout
  | .refused .peerIsDown => .ehostdown
  | _ => .eperm

/-- `replicate`, `none` for `NoError`. The type of a nil response is `ACK`. -/
def replicate (m : Mirror) (proc : Process) (s : Store) (answer : Option ReplicateError)
    (req : Request) : Except Panic (Option Errno) :=
  match m.consult proc s req with
  | .error p => .error p
  | .ok resp =>
    if resp.map Response.type = some .nack then
      match resp.bind Response.error with
      | none => .error .nilDereference
      | some e => .ok (some (errnoFromProtobufError e))
    else .ok (answer.map errnoFromReplicateError)

/-- Without permission there is an error. So a FUSE call that was refused never goes on to its
operation. -/
theorem replicate_of_error {m : Mirror} {proc : Process} {s : Store} {err : ReplicateError}
    {req : Request} : replicate m proc s (some err) req ≠ .ok none := by
  unfold replicate
  split
  · nofun
  · split
    · split <;> nofun
    · nofun

end ReplicatedFs.Rfs
