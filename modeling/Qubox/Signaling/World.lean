import Qubox.Library.Site
import Qubox.Signaling.Call

/-!
# A cluster of instances

Any number of instances share one Redis. Each has its own tables, its own
environment and its own configuration, and its calls interleave with those of
all other instances at their await points. Between two actions the environment
of an instance may change, a key of Redis may expire, and instances may join or
leave the presence channel.
-/

namespace Qubox.Signaling

open Interaction

structure World where
  state : InstanceId → SignalingState
  env : InstanceId → Env
  redis : Redis

namespace World

/-- What the calls of an instance act on. -/
def server (w : World) (site : InstanceId) : Server := ⟨w.state site, w.redis, w.env site⟩

def update (w : World) (site : InstanceId) (s : Server) : World :=
  { w with state := Function.update w.state site s.state, redis := s.redis }

def exec (a : InstanceId × Action) (w : World) : a.2.Answer × World :=
  let result := Server.exec a.2 (w.server a.1)
  (result.1, w.update a.1 result.2)

/-- Instances without peers, requests and sessions, each over a loaded store. -/
def fresh (pairings : InstanceId → List PairingGrant)
    (file : InstanceId → Option (List PairingGrant)) (env : InstanceId → Env)
    (subscribers : List InstanceId) : World where
  state := fun site => .fresh (pairings site) (file site)
  env
  redis := { Redis.empty with subscribers }

variable (a : InstanceId × Action) (w : World)

/-- An action changes the tables of its own instance only. -/
theorem exec_state (site : InstanceId) : (exec a w).2.state site =
    if site = a.1 then (Server.exec a.2 (w.server a.1)).2.state else w.state site :=
  Function.update_apply _ _ _ _

@[simp] theorem exec_redis : (exec a w).2.redis = (Server.exec a.2 (w.server a.1)).2.redis := rfl

end World

/-- What may happen to a cluster without an action of an instance. -/
inductive WorldChange where
  | env (site : InstanceId) (env : Env)
  | expirePeer (peerId : Uuid)
  | expireSession (sessionId : Uuid)
  | expirePair (host client : Uuid)
  | subscribe (subscribers : List InstanceId)

def WorldChange.apply : WorldChange → World → World
  | .env site e, w => { w with env := Function.update w.env site e }
  | .expirePeer peerId, w =>
      { w with redis := { w.redis with peers := w.redis.peers.erase peerId } }
  | .expireSession sessionId, w =>
      { w with redis := { w.redis with sessions := w.redis.sessions.erase sessionId } }
  | .expirePair host client, w =>
      { w with redis := { w.redis with pairs := w.redis.pairs.filter (· ≠ (host, client)) } }
  | .subscribe subscribers, w => { w with redis := { w.redis with subscribers } }

@[simp] theorem WorldChange.apply_state (x : WorldChange) (w : World) :
    (x.apply w).state = w.state := by
  cases x <;> rfl

/-- A call at an instance. -/
structure SiteCall where
  site : InstanceId
  call : Call
  deriving DecidableEq

def SiteCall.body (cfg : InstanceId → Config) (c : SiteCall) :
    Program (signature.sited InstanceId) CallError Unit :=
  (c.call.body (cfg c.site)).sited c.site

@[reducible] def cluster (cfg : InstanceId → Config) :
    System (signature.sited InstanceId) World CallError SiteCall WorldChange where
  exec := World.exec
  body := SiteCall.body cfg
  change := WorldChange.apply

abbrev WorldPool := Pool (signature.sited InstanceId) World CallError SiteCall

abbrev WorldMove := Move SiteCall WorldChange

/-- A cluster with no call in progress. -/
def resting (w : World) : WorldPool := ⟨w, []⟩

namespace Sample

/-- Redis is up, and devices are enrolled in the tenant of the same number. -/
def clusterEnv : Env :=
  { env with redisUp := true, lookup := fun deviceId _ => .ok (some ⟨deviceId, 0, false⟩) }

/-- Instances that join the cluster and admit everybody. -/
def clustered (site : InstanceId) : Config := { config with cluster := some site }

/-- Two subscribed instances over stores with the given grants. -/
def twoInstances (pairings : InstanceId → List PairingGrant) : World :=
  .fresh pairings (fun _ => none) (fun _ => clusterEnv) ["a", "b"]

end Sample

end Qubox.Signaling
