import Mathlib.Data.List.AList

/-!
# The control center's namespace service

`cc/service` keeps the namespaces of a cluster in the coordinator store and
pushes every change to the proxies of the cluster through their admin API. The
store, the proxies and the models package are outside the sources: the service
sees them only through their answers, which the model takes from an
environment `Env`. A call is answered from the calls made before it, so every
theorem here holds for every behaviour of the store and of the proxies. The
fingerprint queries run in goroutines: each proxy answers its own query, and
the channel hands the answers on in the order a schedule of the goroutines
chooses.

A run of the service is the calls it made, each with whether it returned
without an error (`Event`), and its result.

The store's `ListProxyMonitorMetrics` is taken to return a list, which every
loop over the proxies ranges over in that one order. The store package is not
in the sources; were it a Go map, each `range` would pick its own order, and the
prepare and commit loops of `ModifyNamespace` could visit the proxies in
different orders, which the model does not cover.
-/

namespace GoSharding

namespace Service

/-- `models.CCConfig`, by what the service reads of it: the coordinator's address
and credentials, and the key the namespaces are encrypted with. -/
structure CCConfig where
  CoordinatorAddr : String
  UserName : String
  Password : String
  EncryptKey : String

/-- `models.Namespace`: its name, and the rest of its configuration, which only the
models package reads. -/
structure Namespace where
  Name : String
  config : String
  deriving DecidableEq, Repr

/-- `models.ProxyMonitorMetric`, by the address of the proxy's admin API. -/
structure ProxyMonitorMetric where
  IP : String
  AdminPort : String
  deriving DecidableEq, Repr

/-- `v.IP+":"+v.AdminPort`, where the proxy's admin API listens. -/
def ProxyMonitorMetric.host (v : ProxyMonitorMetric) : String := v.IP ++ ":" ++ v.AdminPort

/-- A Go `map[string]string`. -/
abbrev GoMap := AList (fun _ : String => String)

/-- `proxy.SQLFingerprint`: a proxy's slow and failed statements, by fingerprint. -/
structure Proxy.SQLFingerprint where
  SlowSQL : GoMap
  ErrorSQL : GoMap

/-- The coordinator client `config.NewClient(config.ConfigEtcd, addr, user, password, root)`
opens. -/
structure Client where
  CoordinatorAddr : String
  UserName : String
  Password : String
  root : String

def getCoordinatorRoot (cluster : String) : String := if cluster ≠ "" then "/" ++ cluster else cluster

/-- The client every function of the service opens: the coordinator of `cfg`, under the
cluster's root. -/
def NewClient (cfg : CCConfig) (cluster : String) : Client :=
  ⟨cfg.CoordinatorAddr, cfg.UserName, cfg.Password, getCoordinatorRoot cluster⟩

/-- A call the service makes to the store or to a proxy's admin API. -/
inductive Call
  | ListNamespace
  | LoadNamespace (name : String)
  | UpdateNamespace (ns : Namespace)
  | DelNamespace (name : String)
  | ListProxyMonitorMetrics
  | PrepareConfig (host name : String)
  | CommitConfig (host name : String)
  | ProxyDelNamespace (host name : String)
  deriving DecidableEq, Repr

/-- A call, and whether it returned without an error. -/
structure Event where
  call : Call
  ok : Bool
  deriving DecidableEq, Repr

/-- What the service runs against: the models package's checks of a namespace, the
answers of the store and of the proxies to a call made after the calls `done`, and the
answer each fingerprint goroutine, by its index, gets from its proxy. -/
structure Env where
  /-- `namespace.Verify()` -/
  Verify : Namespace → Option String
  /-- `namespace.Encrypt(key)`: the namespace it leaves behind, or its error. -/
  Encrypt : String → Namespace → Except String Namespace
  ListNamespace : List Event → Client → Except String (List String)
  LoadNamespace : List Event → Client → String → String → Except String (Option Namespace)
  UpdateNamespace : List Event → Client → Namespace → Except String Unit
  DelNamespace : List Event → Client → String → Except String Unit
  ListProxyMonitorMetrics : List Event → Client → Except String (List ProxyMonitorMetric)
  PrepareConfig : List Event → String → String → Except String Unit
  CommitConfig : List Event → String → String → Except String Unit
  ProxyDelNamespace : List Event → String → String → Except String Unit
  QueryNamespaceSQLFingerprint : Nat → String → String → Option Proxy.SQLFingerprint
  QueryProxyConfigFingerprint : Nat → String → String

/-- A function of the service: its calls so far, and an error or a result. -/
abbrev ServiceM := ExceptT String (StateM (List Event))

/-- Run `x` after the calls `done`: its error or result, and the calls made by then. -/
def exec {α : Type} (x : ServiceM α) (done : List Event) : Except String α × List Event :=
  x.run.run done

/-- Make the call `c`, which the store or a proxy answers with `answer` of the calls
before it. -/
def issue {α : Type} (c : Call) (answer : List Event → Except String α) : ServiceM α := do
  let done ← get
  set (done ++ [⟨c, (answer done).toBool⟩])
  match answer done with
  | .ok a => pure a
  | .error e => throw e

/-! ## The service -/

def ListNamespace (env : Env) (cfg : CCConfig) (cluster : String) : ServiceM (List String) :=
  issue .ListNamespace fun done => env.ListNamespace done (NewClient cfg cluster)

/-- The loop of `QueryNamespace` over the names left, with the namespaces `data` loaded so
far: a load error drops `data`, and the first name the store does not have ends the loop. -/
def loadNamespaces (env : Env) (client : Client) (key : String) :
    List String → List Namespace → ServiceM (List Namespace)
  | [], data => pure data
  | v :: names, data => do
    match ← issue (.LoadNamespace v) fun done => env.LoadNamespace done client key v with
    | none => pure data
    | some ns => loadNamespaces env client key names (data ++ [ns])

def QueryNamespace (env : Env) (names : List String) (cfg : CCConfig) (cluster : String) :
    ServiceM (List Namespace) :=
  loadNamespaces env (NewClient cfg cluster) cfg.EncryptKey names []

/-- The loop `for _, v := range proxies { err := f(v.IP+":"+v.AdminPort, name, cfg); if err
!= nil { return err } }` by which the service makes the call `call` to each proxy in turn. -/
def eachProxy (call : String → String → Call) (answer : List Event → String → String → Except String Unit)
    (proxies : List ProxyMonitorMetric) (name : String) : ServiceM Unit :=
  proxies.forM fun v => issue (call v.host name) fun done => answer done v.host name

/-- `ModifyNamespace(namespace, cfg, cluster)`: check and encrypt the namespace, save it in
the store, then have every proxy prepare it and, once all have, commit it. -/
def ModifyNamespace (env : Env) (ns : Namespace) (cfg : CCConfig) (cluster : String) : ServiceM Unit := do
  if let some e := env.Verify ns then throw ("verify namespace error: " ++ e)
  let ns ← match env.Encrypt cfg.EncryptKey ns with
    | .ok ns => pure ns
    | .error e => throw ("encrypt namespace error: " ++ e)
  let client := NewClient cfg cluster
  issue (.UpdateNamespace ns) fun done => env.UpdateNamespace done client ns
  let proxies ← issue .ListProxyMonitorMetrics fun done => env.ListProxyMonitorMetrics done client
  eachProxy .PrepareConfig env.PrepareConfig proxies ns.Name
  eachProxy .CommitConfig env.CommitConfig proxies ns.Name

/-- `DelNamespace(name, cfg, cluster)`: delete the namespace from the store, then from
every proxy. -/
def DelNamespace (env : Env) (name : String) (cfg : CCConfig) (cluster : String) : ServiceM Unit := do
  let client := NewClient cfg cluster
  issue (.DelNamespace name) fun done => env.DelNamespace done client name
  let proxies ← issue .ListProxyMonitorMetrics fun done => env.ListProxyMonitorMetrics done client
  eachProxy .ProxyDelNamespace env.ProxyDelNamespace proxies name

/-- How the runtime interleaves the goroutines of a query: the order in which their sends
reach the channel, which holds each send once. -/
structure Schedule where
  order : {α : Type} → List α → List α
  perm : ∀ {α : Type} (l : List α), List.Perm (order l) l

/-- `for k, v := range src { dst[k] = v }` -/
def mergeInto (dst src : GoMap) : GoMap := src.foldl (fun m k v => m.insert k v) dst

/-- One turn of the loop of `SQLFingerprint` over what the goroutines sent: a nil answer is
skipped, and each other answer's slow and failed statements are copied into the two maps. -/
def collectStep (acc : GoMap × GoMap) : Option Proxy.SQLFingerprint → GoMap × GoMap
  | none => acc
  | some r => (mergeInto acc.1 r.SlowSQL, mergeInto acc.2 r.ErrorSQL)

/-- The loop of `SQLFingerprint` over the answers in the order the channel received them,
from two empty maps. -/
def collectSQLFingerprints (respC : List (Option Proxy.SQLFingerprint)) : GoMap × GoMap :=
  respC.foldl collectStep (∅, ∅)

/-- What the goroutines of `SQLFingerprint` send: goroutine `i` asks the `i`-th proxy of
`proxies` for its fingerprints of the namespace `name`. -/
def sentSQLFingerprints (env : Env) (proxies : List ProxyMonitorMetric) (name : String) :
    List (Option Proxy.SQLFingerprint) :=
  proxies.enum.map fun (i, p) => env.QueryNamespaceSQLFingerprint i p.host name

/-- `SQLFingerprint(name, cfg, cluster)`, with the answers received in the order `sched`
gives. -/
def SQLFingerprint (env : Env) (sched : Schedule) (name : String) (cfg : CCConfig) (cluster : String) :
    ServiceM (GoMap × GoMap) := do
  let proxies ← issue .ListProxyMonitorMetrics fun done =>
    env.ListProxyMonitorMetrics done (NewClient cfg cluster)
  let respC := sched.order (sentSQLFingerprints env proxies name)
  pure (collectSQLFingerprints respC)

/-- What the goroutines of `ProxyConfigFingerprint` send: goroutine `i` sends the one-entry
map from the `i`-th proxy's host to the fingerprint of its configuration. -/
def sentConfigFingerprints (env : Env) (proxies : List ProxyMonitorMetric) : List GoMap :=
  proxies.enum.map fun (i, p) => AList.singleton p.host (env.QueryProxyConfigFingerprint i p.host)

/-- `ProxyConfigFingerprint(cfg, cluster)`, with the maps received in the order `sched` gives.
No map sent is nil, so the loop's nil check never skips one. -/
def ProxyConfigFingerprint (env : Env) (sched : Schedule) (cfg : CCConfig) (cluster : String) :
    ServiceM GoMap := do
  let proxies ← issue .ListProxyMonitorMetrics fun done =>
    env.ListProxyMonitorMetrics done (NewClient cfg cluster)
  let respC := sched.order (sentConfigFingerprints env proxies)
  pure (respC.foldl mergeInto ∅)

/-! ## Runs -/

@[simp] theorem exec_pure {α : Type} (a : α) (done : List Event) :
    exec (pure a : ServiceM α) done = (.ok a, done) := rfl

@[simp] theorem exec_throw {α : Type} (e : String) (done : List Event) :
    exec (throw e : ServiceM α) done = (.error e, done) := rfl

@[simp] theorem exec_issue {α : Type} (c : Call) (answer : List Event → Except String α) (done : List Event) :
    exec (issue c answer) done = (answer done, done ++ [⟨c, (answer done).toBool⟩]) := by
  show exec (do
    set (done ++ [⟨c, (answer done).toBool⟩])
    match answer done with
    | .ok a => pure a
    | .error e => throw e : ServiceM α) done = _
  cases answer done <;> rfl

theorem exec_bind {α β : Type} (x : ServiceM α) (f : α → ServiceM β) (done : List Event) :
    exec (x >>= f) done = match exec x done with
      | (.ok a, d) => exec (f a) d
      | (.error e, d) => (.error e, d) := by
  simp only [exec, ExceptT.run_bind, StateT.run_bind]
  rcases x.run.run done with ⟨_ | _, _⟩ <;> rfl

end Service

end GoSharding
