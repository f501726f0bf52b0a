import ReplicatedFs.Connection.Dial
import ReplicatedFs.P2p.Host

/-!
# `ReplicatedFs.Main`: the start of a host

The model of `setup` and `run` in `main.go`, as far as they decide under which name the host runs.
`setup` takes the configuration and the value of the flag `name`. `run` splits the host off the
peers, and starts the pool and the host with the others.

The logger, the signals, the mirror and the file system are left out. They do not change the peers.
-/

set_option autoImplicit false

namespace ReplicatedFs.Main

open Config
open Connection
open P2p
open Protobuf
open Library

/-- What becomes of the program: `setup` returns an error, `Pop` panics, `log.Fatal` ends it, or the
pool and the host run. -/
inductive Outcome
  | invalid
  | panicked
  | fatal (msg : String)
  | running (host : Host) (pool : PacedPool)

/-- `setup`, none when the configuration is not accepted. -/
def setup (conf : Config) (h : Heap Peer) (name : PeerName) : Option Config :=
  let conf := if name ≠ "" then { conf with hostName := name } else conf
  if conf.accepted h then some conf else none

/-- `run`. It takes the host by the flag, not by the name in the configuration. -/
def run (conf : Config) (h : Heap Peer) (name : PeerName) : Outcome :=
  match conf.peers.pop h name with
  | none => .panicked
  | some (host, peers, h') =>
    if host.name = "" then
      .fatal "invalid host name provided, host must be listed in the peers config"
    else
      let names := (peers.read h').map Peer.name
      .running { name := host.name, peers := names }
        ((newPool host.name names).run.paced conf.dialBackoff)

/-- The action of `main`. -/
def main (conf : Config) (h : Heap Peer) (name : PeerName) : Outcome :=
  match setup conf h name with
  | none => .invalid
  | some conf => run conf h name

end ReplicatedFs.Main
