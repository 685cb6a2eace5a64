import GoSharding.Cc.Service

/-!
# Namespaces across the store and the proxies

`ModifyNamespace` saves a namespace in the store and then runs a two-phase change on the
proxies the store lists: every proxy prepares it, and only once all have does any proxy
commit it. `DelNamespace` deletes the namespace from the store and then from each proxy,
and `QueryNamespace` loads namespaces by name. Each loop stops at the first error.

For every behaviour of the store and of the proxies:

* a proxy is told to commit a namespace only after the store acknowledged it and every
  listed proxy acknowledged its prepare (`ModifyNamespace_commit_after_prepares`);
* `ModifyNamespace` returns nil exactly when every listed proxy acknowledged the prepare
  and then the commit, in the listing's order (`ModifyNamespace_ok_iff`);
* `DelNamespace` tells the proxies only after the store deleted the namespace, and stops
  at the first proxy that refuses (`DelNamespace_runs`);
* `QueryNamespace` returns the namespaces of the names before the first one the store does
  not have, and never asks for a name after it (`QueryNamespace_runs`).
-/

namespace GoSharding

namespace Service

/-! ## Loops over the proxies -/

theorem eachProxy_cons (call : String → String → Call) (answer : List Event → String → String → Except String Unit)
    (v : ProxyMonitorMetric) (ps : List ProxyMonitorMetric) (name : String) :
    eachProxy call answer (v :: ps) name =
      issue (call v.host name) (fun done => answer done v.host name) >>= fun _ =>
        eachProxy call answer ps name := rfl

/-- The events of the calls `call v.host name` to the proxies `ps`, each acknowledged. -/
def acked (call : String → String → Call) (ps : List ProxyMonitorMetric) (name : String) : List Event :=
  ps.map fun v => ⟨call v.host name, true⟩

theorem mem_acked {call : String → String → Call} {ps : List ProxyMonitorMetric} {name : String} {e : Event} :
    e ∈ acked call ps name ↔ ∃ v ∈ ps, e = ⟨call v.host name, true⟩ := by
  simp only [acked, List.mem_map, eq_comm]

/-- A loop over the proxies either has every proxy acknowledge and returns nil, or has the
proxies before some `v` acknowledge and stops at `v`'s refusal, returning its error. -/
theorem exec_eachProxy (call : String → String → Call) (answer : List Event → String → String → Except String Unit)
    (ps : List ProxyMonitorMetric) (name : String) (done : List Event) :
    exec (eachProxy call answer ps name) done = (.ok (), done ++ acked call ps name) ∨
    ∃ pre v post e, ps = pre ++ v :: post ∧ answer (done ++ acked call pre name) v.host name = .error e ∧
      exec (eachProxy call answer ps name) done =
        (.error e, done ++ acked call pre name ++ [⟨call v.host name, false⟩]) := by
  induction ps generalizing done with
  | nil => exact .inl (by simp [eachProxy, acked])
  | cons v ps ih =>
    rw [eachProxy_cons, exec_bind, exec_issue]
    cases h : answer done v.host name with
    | error e => exact .inr ⟨[], v, ps, e, rfl, by simpa [acked] using h, by simp [acked, Except.toBool]⟩
    | ok u =>
      rcases ih (done ++ [⟨call v.host name, true⟩]) with hok | ⟨pre, w, post, e, rfl, he, herr⟩
      · exact .inl (by simpa [acked] using hok)
      · exact .inr ⟨v :: pre, w, post, e, rfl, by simpa [acked] using he, by simpa [acked] using herr⟩

/-! ## Traces -/

/-- A call in a trace after `done` is one of the calls made after `done`. -/
theorem mem_of_trace {done t pre post : List Event} {e : Event} (h : done ++ t = done ++ pre ++ e :: post) :
    e ∈ t := by
  rw [List.append_assoc, List.append_cancel_left_eq] at h
  simp [h]

/-- What comes before a call that is not among the first calls `A` of a trace starts with `A`. -/
theorem prefix_of_not_mem {A B pre post : List Event} {e : Event} (h : A ++ B = pre ++ e :: post) (he : e ∉ A) :
    ∃ m, pre = A ++ m := by
  rcases List.append_eq_append_iff.mp h with ⟨m, hpre, -⟩ | ⟨c, hA, hB⟩
  · exact ⟨m, hpre⟩
  · cases c with
    | nil => exact ⟨[], by simpa using hA.symm⟩
    | cons c cs =>
      obtain ⟨rfl, -⟩ := List.cons.inj hB
      exact absurd (by simp [hA]) he

/-! ## ModifyNamespace -/

/-- What the prepare and commit loops of `ModifyNamespace` on the proxies `ps` for the name
`n` can leave: every proxy prepared and then committed, and nil is returned; or an error
after the proxies before some `v` prepared and `v` refused; or an error after every proxy
prepared, the proxies before some `v` committed and `v` refused. -/
def TwoPhase (ps : List ProxyMonitorMetric) (n : String) (r : Except String Unit) (t : List Event) : Prop :=
  r = .ok () ∧ t = acked .PrepareConfig ps n ++ acked .CommitConfig ps n ∨
  (∃ e, r = .error e) ∧
    ((∃ pre v post, ps = pre ++ v :: post ∧
      t = acked .PrepareConfig pre n ++ [⟨.PrepareConfig v.host n, false⟩]) ∨
    ∃ pre v post, ps = pre ++ v :: post ∧
      t = acked .PrepareConfig ps n ++ acked .CommitConfig pre n ++ [⟨.CommitConfig v.host n, false⟩])

theorem exec_twoPhase (env : Env) (ps : List ProxyMonitorMetric) (n : String) (done : List Event) :
    ∃ r t, exec (eachProxy .PrepareConfig env.PrepareConfig ps n >>= fun _ =>
      eachProxy .CommitConfig env.CommitConfig ps n) done = (r, done ++ t) ∧ TwoPhase ps n r t := by
  rw [exec_bind]
  rcases exec_eachProxy .PrepareConfig env.PrepareConfig ps n done with h1 | ⟨pre, v, post, e, hps, -, h1⟩
  · rw [h1]
    rcases exec_eachProxy .CommitConfig env.CommitConfig ps n (done ++ acked .PrepareConfig ps n) with
      h2 | ⟨pre, v, post, e, hps, -, h2⟩
    · exact ⟨_, _, by simpa using h2, .inl ⟨rfl, rfl⟩⟩
    · exact ⟨_, _, by simpa using h2, .inr ⟨⟨e, rfl⟩, .inr ⟨pre, v, post, hps, rfl⟩⟩⟩
  · rw [h1]
    exact ⟨_, _, by simp, .inr ⟨⟨e, rfl⟩, .inl ⟨pre, v, post, hps, rfl⟩⟩⟩

/-- A commit in the proxy phases is for the name `n` and to a listed proxy, and every listed
proxy acknowledged the prepare before it. -/
theorem TwoPhase_commit {ps : List ProxyMonitorMetric} {n : String} {r : Except String Unit} {t : List Event}
    {host n0 : String} {b : Bool} (htp : TwoPhase ps n r t) (he : ⟨.CommitConfig host n0, b⟩ ∈ t) :
    n0 = n ∧ host ∈ ps.map ProxyMonitorMetric.host ∧
      ∃ X, t = acked .PrepareConfig ps n ++ X := by
  rcases htp with ⟨-, rfl⟩ | ⟨-, ⟨pre, v, post, -, rfl⟩ | ⟨pre, v, post, rfl, rfl⟩⟩
  · simp only [List.mem_append, mem_acked] at he
    rcases he with ⟨v, -, hv⟩ | ⟨v, hv, hve⟩
    · simp at hv
    · simp only [Event.mk.injEq, Call.CommitConfig.injEq] at hve
      exact ⟨hve.1.2, List.mem_map.mpr ⟨v, hv, hve.1.1.symm⟩, _, rfl⟩
  · simp [mem_acked] at he
  · simp only [List.mem_append, mem_acked, List.mem_singleton] at he
    rcases he with (⟨v, -, hv⟩ | ⟨w, hw, hwe⟩) | hve
    · simp at hv
    · simp only [Event.mk.injEq, Call.CommitConfig.injEq] at hwe
      exact ⟨hwe.1.2, List.mem_map.mpr ⟨w, List.mem_append_left _ hw, hwe.1.1.symm⟩, _, List.append_assoc _ _ _⟩
    · simp only [Event.mk.injEq, Call.CommitConfig.injEq] at hve
      exact ⟨hve.1.2, List.mem_map.mpr ⟨v, by simp, hve.1.1.symm⟩, _, List.append_assoc _ _ _⟩

theorem refusal_of_TwoPhase {ps : List ProxyMonitorMetric} {n : String} {r : Except String Unit}
    {t : List Event} (htp : TwoPhase ps n r t) (hr : r ≠ .ok ()) : ∃ e ∈ t, e.ok = false := by
  rcases htp with ⟨rfl, -⟩ | ⟨-, ⟨pre, v, post, -, rfl⟩ | ⟨pre, v, post, -, rfl⟩⟩
  · exact absurd rfl hr
  · exact ⟨⟨.PrepareConfig v.host n, false⟩, by simp, rfl⟩
  · exact ⟨⟨.CommitConfig v.host n, false⟩, by simp, rfl⟩

variable {env : Env} {ns : Namespace} {cfg : CCConfig} {cluster : String} {done : List Event}

/-- A namespace that fails `Verify` or `Encrypt` makes `ModifyNamespace` return that error,
prefixed with the check's name, before any call. -/
theorem ModifyNamespace_checks :
    (∀ e, env.Verify ns = some e →
      exec (ModifyNamespace env ns cfg cluster) done = (.error ("verify namespace error: " ++ e), done)) ∧
    (∀ e, env.Verify ns = none → env.Encrypt cfg.EncryptKey ns = .error e →
      exec (ModifyNamespace env ns cfg cluster) done = (.error ("encrypt namespace error: " ++ e), done)) :=
  ⟨fun e hv => by simp [ModifyNamespace, hv, exec_bind],
    fun e hv he => by simp [ModifyNamespace, hv, he, exec_bind]⟩

/-- Every run of `ModifyNamespace`: a check fails before any call; or the store refuses the
encrypted namespace; or the listing fails; or the listing answers `ps` and the proxy phases
run on it. -/
theorem ModifyNamespace_cases {r : Except String Unit} {tr : List Event}
    (h : exec (ModifyNamespace env ns cfg cluster) done = (r, tr)) :
    (∃ e, r = .error e) ∧ tr = done ∨
    ∃ ns', env.Verify ns = none ∧ env.Encrypt cfg.EncryptKey ns = .ok ns' ∧
      ((∃ e, r = .error e) ∧ tr = done ++ [⟨.UpdateNamespace ns', false⟩] ∨
       (∃ e, r = .error e) ∧
         tr = done ++ [⟨.UpdateNamespace ns', true⟩, ⟨.ListProxyMonitorMetrics, false⟩] ∨
       ∃ ps t, env.ListProxyMonitorMetrics (done ++ [⟨.UpdateNamespace ns', true⟩])
           (NewClient cfg cluster) = .ok ps ∧
         tr = done ++ ⟨.UpdateNamespace ns', true⟩ :: ⟨.ListProxyMonitorMetrics, true⟩ :: t ∧
         TwoPhase ps ns'.Name r t) := by
  cases hv : env.Verify ns with
  | some e =>
    rw [ModifyNamespace_checks.1 e hv, Prod.mk.injEq] at h
    exact .inl ⟨⟨_, h.1.symm⟩, h.2.symm⟩
  | none =>
  cases he : env.Encrypt cfg.EncryptKey ns with
  | error e =>
    rw [ModifyNamespace_checks.2 e hv he, Prod.mk.injEq] at h
    exact .inl ⟨⟨_, h.1.symm⟩, h.2.symm⟩
  | ok ns' =>
  refine .inr ⟨ns', rfl, rfl, ?_⟩
  simp [ModifyNamespace, hv, he, exec_bind] at h
  cases hu : env.UpdateNamespace done (NewClient cfg cluster) ns' with
  | error e =>
    simp only [hu, Except.toBool, Prod.mk.injEq] at h
    exact .inl ⟨⟨_, h.1.symm⟩, h.2.symm⟩
  | ok u =>
  cases hl : env.ListProxyMonitorMetrics (done ++ [⟨.UpdateNamespace ns', true⟩]) (NewClient cfg cluster) with
  | error e =>
    simp only [hu, hl, Except.toBool, Prod.mk.injEq] at h
    exact .inr (.inl ⟨⟨_, h.1.symm⟩, by simpa using h.2.symm⟩)
  | ok ps =>
  obtain ⟨r', t, hrun, htp⟩ := exec_twoPhase env ps ns'.Name
    (done ++ [⟨.UpdateNamespace ns', true⟩, ⟨.ListProxyMonitorMetrics, true⟩])
  rw [exec_bind] at hrun
  simp only [hu, hl, Except.toBool, List.append_assoc, List.singleton_append] at h
  rw [hrun, Prod.mk.injEq] at h
  obtain ⟨rfl, rfl⟩ := h
  exact .inr (.inr ⟨ps, t, rfl, by simp, htp⟩)

/-- **Two-phase safety.** A commit reaches a proxy only after the store acknowledged the
encrypted namespace, the listing answered `ps`, and every proxy of `ps` acknowledged the
prepare of the same name; the proxy committed is one of `ps`. -/
theorem ModifyNamespace_commit_after_prepares {pre post : List Event} {host n : String} {b : Bool}
    (h : (exec (ModifyNamespace env ns cfg cluster) done).2 = done ++ pre ++ ⟨.CommitConfig host n, b⟩ :: post) :
    ∃ ns' ps, env.Encrypt cfg.EncryptKey ns = .ok ns' ∧ n = ns'.Name ∧
      env.ListProxyMonitorMetrics (done ++ [⟨.UpdateNamespace ns', true⟩]) (NewClient cfg cluster) = .ok ps ∧
      host ∈ ps.map ProxyMonitorMetric.host ∧
      ∃ m, pre = ⟨.UpdateNamespace ns', true⟩ :: ⟨.ListProxyMonitorMetrics, true⟩ ::
        (acked .PrepareConfig ps n ++ m) := by
  rcases ModifyNamespace_cases (Prod.mk.eta (p := exec (ModifyNamespace env ns cfg cluster) done)).symm with
    ⟨-, htr⟩ | ⟨ns', -, hns', ⟨-, htr⟩ | ⟨-, htr⟩ | ⟨ps, t, hps, htr, htp⟩⟩
  · have := congrArg List.length (htr ▸ h)
    simp at this
  · exact absurd (mem_of_trace (htr ▸ h)) (by simp)
  · exact absurd (mem_of_trace (htr ▸ h)) (by simp)
  · have hmem := mem_of_trace (htr ▸ h)
    simp only [List.mem_cons, Event.mk.injEq, reduceCtorEq, false_and, false_or] at hmem
    obtain ⟨rfl, hhost, X, rfl⟩ := TwoPhase_commit htp hmem
    rw [htr, List.append_assoc, List.append_cancel_left_eq] at h
    obtain ⟨m, hm⟩ := prefix_of_not_mem (A := ⟨.UpdateNamespace ns', true⟩ :: ⟨.ListProxyMonitorMetrics, true⟩ ::
      acked .PrepareConfig ps ns'.Name) (B := X) (by simpa using h) (by simp [mem_acked])
    exact ⟨ns', ps, hns', rfl, hps, hhost, m, by simpa using hm⟩

/-- Two proxies on one port of two machines. -/
def twoProxies : List ProxyMonitorMetric := [⟨"10.0.0.1", "13307"⟩, ⟨"10.0.0.2", "13307"⟩]

/-- A cluster of the two proxies `twoProxies` where the store and the proxies acknowledge
every call, every proxy reports the same slow statement, and goroutine `i` reads the
configuration fingerprint `i`. -/
def ackingEnv : Env where
  Verify _ := none
  Encrypt _ ns := .ok ns
  ListNamespace _ _ := .ok []
  LoadNamespace _ _ _ _ := .ok none
  UpdateNamespace _ _ _ := .ok ()
  DelNamespace _ _ _ := .ok ()
  ListProxyMonitorMetrics _ _ := .ok twoProxies
  PrepareConfig _ _ _ := .ok ()
  CommitConfig _ _ _ := .ok ()
  ProxyDelNamespace _ _ _ := .ok ()
  QueryNamespaceSQLFingerprint _ _ _ := some ⟨AList.singleton "f1" "select 1", ∅⟩
  QueryProxyConfigFingerprint i _ := toString i

/-- A control center of the cluster `c`. -/
def ccConfig : CCConfig := ⟨"127.0.0.1:2379", "root", "root", "key"⟩

theorem ModifyNamespace_commit_after_prepares_acking :
    (exec (ModifyNamespace ackingEnv ⟨"db", ""⟩ ccConfig "c") []).2 = [] ++
      [⟨.UpdateNamespace ⟨"db", ""⟩, true⟩, ⟨.ListProxyMonitorMetrics, true⟩,
        ⟨.PrepareConfig "10.0.0.1:13307" "db", true⟩, ⟨.PrepareConfig "10.0.0.2:13307" "db", true⟩,
        ⟨.CommitConfig "10.0.0.1:13307" "db", true⟩] ++ ⟨.CommitConfig "10.0.0.2:13307" "db", true⟩ :: [] ∧
    ∃ ns' ps, ackingEnv.Encrypt ccConfig.EncryptKey ⟨"db", ""⟩ = .ok ns' ∧ "db" = ns'.Name ∧
      ackingEnv.ListProxyMonitorMetrics ([] ++ [⟨.UpdateNamespace ns', true⟩]) (NewClient ccConfig "c") = .ok ps ∧
      "10.0.0.2:13307" ∈ ps.map ProxyMonitorMetric.host ∧
      ∃ m, [⟨.UpdateNamespace ⟨"db", ""⟩, true⟩, ⟨.ListProxyMonitorMetrics, true⟩,
        ⟨.PrepareConfig "10.0.0.1:13307" "db", true⟩, ⟨.PrepareConfig "10.0.0.2:13307" "db", true⟩,
        ⟨.CommitConfig "10.0.0.1:13307" "db", true⟩] =
        ⟨.UpdateNamespace ns', true⟩ :: ⟨.ListProxyMonitorMetrics, true⟩ :: (acked .PrepareConfig ps "db" ++ m) :=
  have h : (exec (ModifyNamespace ackingEnv ⟨"db", ""⟩ ccConfig "c") []).2 = [] ++
      [⟨.UpdateNamespace ⟨"db", ""⟩, true⟩, ⟨.ListProxyMonitorMetrics, true⟩,
        ⟨.PrepareConfig "10.0.0.1:13307" "db", true⟩, ⟨.PrepareConfig "10.0.0.2:13307" "db", true⟩,
        ⟨.CommitConfig "10.0.0.1:13307" "db", true⟩] ++ ⟨.CommitConfig "10.0.0.2:13307" "db", true⟩ :: [] := by
    rfl
  ⟨h, ModifyNamespace_commit_after_prepares h⟩

/-- **`ModifyNamespace` succeeds exactly when every listed proxy prepared and committed.** -/
theorem ModifyNamespace_ok_iff :
    (exec (ModifyNamespace env ns cfg cluster) done).1 = .ok () ↔
    ∃ ns' ps, env.Verify ns = none ∧ env.Encrypt cfg.EncryptKey ns = .ok ns' ∧
      env.ListProxyMonitorMetrics (done ++ [⟨.UpdateNamespace ns', true⟩]) (NewClient cfg cluster) = .ok ps ∧
      (exec (ModifyNamespace env ns cfg cluster) done).2 =
        done ++ ⟨.UpdateNamespace ns', true⟩ :: ⟨.ListProxyMonitorMetrics, true⟩ ::
          (acked .PrepareConfig ps ns'.Name ++ acked .CommitConfig ps ns'.Name) := by
  rcases ModifyNamespace_cases (Prod.mk.eta (p := exec (ModifyNamespace env ns cfg cluster) done)).symm with
    ⟨⟨e, he⟩, htr⟩ | ⟨ns', hv, hns', ⟨⟨e, he⟩, htr⟩ | ⟨⟨e, he⟩, htr⟩ | ⟨ps, t, hps, htr, htp⟩⟩
  · rw [he, htr]
    simp only [reduceCtorEq, false_iff, not_exists, not_and]
    intro _ _ _ _ _ h
    simpa using congrArg List.length h
  · rw [he, htr]
    simp
  · rw [he, htr]
    simp
  · rw [htr]
    constructor
    · intro hr
      rcases htp with ⟨-, rfl⟩ | ⟨⟨e, he⟩, -⟩
      · exact ⟨ns', ps, hv, hns', hps, rfl⟩
      · rw [he] at hr; cases hr
    · rintro ⟨_, _, -, -, -, h⟩
      simp only [List.append_cancel_left_eq, List.cons.injEq] at h
      by_contra hr
      obtain ⟨e, he, hok⟩ := refusal_of_TwoPhase htp hr
      rw [h.2.2] at he
      simp only [List.mem_append, mem_acked] at he
      rcases he with ⟨v, -, rfl⟩ | ⟨v, -, rfl⟩ <;> cases hok

/-! ## DelNamespace -/

/-- **Every run of `DelNamespace`.** The store deletes the namespace first; only then is the
listing asked for the proxies, and the proxies are told in the listing's order until one
refuses. -/
theorem DelNamespace_runs (name : String) :
    (∃ e, env.DelNamespace done (NewClient cfg cluster) name = .error e ∧
      exec (DelNamespace env name cfg cluster) done = (.error e, done ++ [⟨.DelNamespace name, false⟩])) ∨
    (∃ e, env.ListProxyMonitorMetrics (done ++ [⟨.DelNamespace name, true⟩]) (NewClient cfg cluster) = .error e ∧
      exec (DelNamespace env name cfg cluster) done =
        (.error e, done ++ [⟨.DelNamespace name, true⟩, ⟨.ListProxyMonitorMetrics, false⟩])) ∨
    ∃ ps, env.ListProxyMonitorMetrics (done ++ [⟨.DelNamespace name, true⟩]) (NewClient cfg cluster) = .ok ps ∧
      (exec (DelNamespace env name cfg cluster) done =
        (.ok (), done ++ ⟨.DelNamespace name, true⟩ :: ⟨.ListProxyMonitorMetrics, true⟩ ::
          acked .ProxyDelNamespace ps name) ∨
      ∃ pre v post e, ps = pre ++ v :: post ∧
        env.ProxyDelNamespace (done ++ ⟨.DelNamespace name, true⟩ :: ⟨.ListProxyMonitorMetrics, true⟩ ::
          acked .ProxyDelNamespace pre name) v.host name = .error e ∧
        exec (DelNamespace env name cfg cluster) done =
          (.error e, done ++ ⟨.DelNamespace name, true⟩ :: ⟨.ListProxyMonitorMetrics, true⟩ ::
            (acked .ProxyDelNamespace pre name ++ [⟨.ProxyDelNamespace v.host name, false⟩]))) := by
  simp only [DelNamespace, exec_bind, exec_issue]
  cases hd : env.DelNamespace done (NewClient cfg cluster) name with
  | error e => exact .inl ⟨e, rfl, rfl⟩
  | ok u =>
  cases hl : env.ListProxyMonitorMetrics (done ++ [⟨.DelNamespace name, true⟩]) (NewClient cfg cluster) with
  | error e => exact .inr (.inl ⟨e, rfl, by simp [hl, Except.toBool]⟩)
  | ok ps =>
  refine .inr (.inr ⟨ps, rfl, ?_⟩)
  simp only [hl, Except.toBool, List.append_assoc, List.singleton_append]
  rcases exec_eachProxy .ProxyDelNamespace env.ProxyDelNamespace ps name
      (done ++ ⟨.DelNamespace name, true⟩ :: [⟨.ListProxyMonitorMetrics, true⟩]) with
    h | ⟨pre, v, post, e, hps, he, h⟩
  · exact .inl (by simpa using h)
  · exact .inr ⟨pre, v, post, e, hps, by simpa using he, by simpa using h⟩

/-! ## QueryNamespace -/

/-- The loads of the names `vs` after the calls `done`, each answered with the namespace of
`nss` at its place. -/
def Loads (env : Env) (client : Client) (key : String) : List Event → List String → List Namespace → Prop
  | _, [], [] => True
  | done, v :: vs, ns :: nss => env.LoadNamespace done client key v = .ok (some ns) ∧
      Loads env client key (done ++ [⟨.LoadNamespace v, true⟩]) vs nss
  | _, _, _ => False

/-- The events of loads of the names `vs`, each answered. -/
def loaded (vs : List String) : List Event := vs.map fun v => ⟨.LoadNamespace v, true⟩

theorem exec_loadNamespaces (env : Env) (client : Client) (key : String) (names : List String)
    (data : List Namespace) (done : List Event) :
    ∃ pre nss, Loads env client key done pre nss ∧
      (names = pre ∧
        exec (loadNamespaces env client key names data) done = (.ok (data ++ nss), done ++ loaded pre) ∨
      ∃ v post, names = pre ++ v :: post ∧
        (env.LoadNamespace (done ++ loaded pre) client key v = .ok none ∧
          exec (loadNamespaces env client key names data) done =
            (.ok (data ++ nss), done ++ loaded pre ++ [⟨.LoadNamespace v, true⟩]) ∨
        ∃ e, env.LoadNamespace (done ++ loaded pre) client key v = .error e ∧
          exec (loadNamespaces env client key names data) done =
            (.error e, done ++ loaded pre ++ [⟨.LoadNamespace v, false⟩]))) := by
  induction names generalizing data done with
  | nil => exact ⟨[], [], trivial, .inl ⟨rfl, by simp [loadNamespaces, loaded]⟩⟩
  | cons v names ih =>
    simp only [loadNamespaces, exec_bind, exec_issue]
    cases h : env.LoadNamespace done client key v with
    | error e =>
      exact ⟨[], [], trivial, .inr ⟨v, names, rfl,
        .inr ⟨e, by simpa [loaded] using h, by simp [loaded, Except.toBool]⟩⟩⟩
    | ok r =>
    cases r with
    | none =>
      exact ⟨[], [], trivial, .inr ⟨v, names, rfl,
        .inl ⟨by simpa [loaded] using h, by simp [loaded, Except.toBool]⟩⟩⟩
    | some ns =>
    obtain ⟨pre, nss, hloads, hrun⟩ := ih (data ++ [ns]) (done ++ [⟨.LoadNamespace v, true⟩])
    refine ⟨v :: pre, ns :: nss, ⟨h, hloads⟩, ?_⟩
    simp only [Except.toBool]
    rcases hrun with ⟨rfl, hrun⟩ | ⟨w, post, rfl, ⟨hw, hrun⟩ | ⟨e, hw, hrun⟩⟩
    · exact .inl ⟨rfl, by simpa [loaded] using hrun⟩
    · exact .inr ⟨w, post, rfl, .inl ⟨by simpa [loaded] using hw, by simpa [loaded] using hrun⟩⟩
    · exact .inr ⟨w, post, rfl, .inr ⟨e, by simpa [loaded] using hw, by simpa [loaded] using hrun⟩⟩

/-- **Every run of `QueryNamespace`.** It loads the names in order and returns the namespaces
of those before the first name the store does not have, asking for no name after it; a
store error returns only the error. -/
theorem QueryNamespace_runs (names : List String) :
    ∃ pre nss, Loads env (NewClient cfg cluster) cfg.EncryptKey done pre nss ∧
      (names = pre ∧ exec (QueryNamespace env names cfg cluster) done = (.ok nss, done ++ loaded pre) ∨
      ∃ v post, names = pre ++ v :: post ∧
        (env.LoadNamespace (done ++ loaded pre) (NewClient cfg cluster) cfg.EncryptKey v = .ok none ∧
          exec (QueryNamespace env names cfg cluster) done =
            (.ok nss, done ++ loaded pre ++ [⟨.LoadNamespace v, true⟩]) ∨
        ∃ e, env.LoadNamespace (done ++ loaded pre) (NewClient cfg cluster) cfg.EncryptKey v = .error e ∧
          exec (QueryNamespace env names cfg cluster) done =
            (.error e, done ++ loaded pre ++ [⟨.LoadNamespace v, false⟩]))) := by
  simpa using exec_loadNamespaces env (NewClient cfg cluster) cfg.EncryptKey names [] done

end Service

end GoSharding
