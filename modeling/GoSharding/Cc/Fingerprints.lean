import GoSharding.Cc.Namespaces

/-!
# Fingerprints gathered from the proxies

`SQLFingerprint` and `ProxyConfigFingerprint` ask every listed proxy at once, one goroutine
a proxy, and copy the answers into Go maps in the order the channel hands them on, which the
runtime chooses (`Schedule`). A later answer overwrites an earlier one at the same key.

For every schedule:

* a fingerprint has an entry exactly when some proxy reported it, with a statement some
  proxy gave for it (`SQLFingerprint_entries`);
* when the proxies agree on the fingerprints they share, the maps do not depend on the
  order the goroutines finish in (`SQLFingerprint_schedule_independent`);
* when the listed hosts are distinct, each host maps to its own proxy's fingerprint
  (`ProxyConfigFingerprint_hosts`).
-/

namespace GoSharding

namespace Service

/-! ## Copying maps -/

/-- Copying the entries `l` of a map into `dst`, one `dst[k] = v` at a time. -/
theorem lookup_foldl_insert (k : String) :
    ∀ (l : List (Σ _ : String, String)), l.NodupKeys → ∀ dst : GoMap,
      (l.foldl (fun m e => m.insert e.1 e.2) dst).lookup k = (l.dlookup k).or (dst.lookup k)
  | [], _, _ => by simp
  | ⟨a, b⟩ :: l, hl, dst => by
    rw [List.nodupKeys_cons] at hl
    rw [List.foldl_cons, lookup_foldl_insert k l hl.2]
    by_cases hk : k = a
    · subst hk
      rw [List.dlookup_cons_eq, List.dlookup_eq_none.mpr hl.1, AList.lookup_insert]
      rfl
    · rw [List.dlookup_cons_ne _ _ hk, AList.lookup_insert_ne hk]

/-- After `for k, v := range src { dst[k] = v }`, a key has the value `src` gives it, or else
the one `dst` gave it. -/
@[simp] theorem lookup_mergeInto (dst src : GoMap) (k : String) :
    (mergeInto dst src).lookup k = (src.lookup k).or (dst.lookup k) :=
  lookup_foldl_insert k src.entries src.nodupKeys dst

/-- Copying the maps `ms` into `dst` in turn leaves a key without a value exactly when
neither `dst` nor any of `ms` gives it one. -/
theorem lookup_foldl_mergeInto_eq_none (k : String) (ms : List GoMap) (dst : GoMap) :
    (ms.foldl mergeInto dst).lookup k = none ↔ dst.lookup k = none ∧ ∀ m ∈ ms, m.lookup k = none := by
  induction ms generalizing dst with
  | nil => simp
  | cons m ms ih =>
    rw [List.foldl_cons, ih, lookup_mergeInto, Option.or_eq_none, List.forall_mem_cons]
    tauto

/-- A value that copying the maps `ms` into `dst` leaves at a key is the one `dst` or one of
`ms` gave it. -/
theorem lookup_foldl_mergeInto_source {k v : String} {ms : List GoMap} {dst : GoMap}
    (h : (ms.foldl mergeInto dst).lookup k = some v) :
    dst.lookup k = some v ∨ ∃ m ∈ ms, m.lookup k = some v := by
  induction ms generalizing dst with
  | nil => exact .inl h
  | cons m ms ih =>
    rcases ih h with h | ⟨m', hm', h⟩
    · rw [lookup_mergeInto] at h
      cases hm : m.lookup k with
      | none => rw [hm, Option.none_or] at h; exact .inl h
      | some w => rw [hm, Option.or_some] at h; exact .inr ⟨m, List.mem_cons_self _ _, h ▸ hm⟩
    · exact .inr ⟨m', List.mem_cons_of_mem _ hm', h⟩

/-- The maps `ms` give the same value to every key two of them share. -/
def Agree (ms : List GoMap) : Prop :=
  ∀ m ∈ ms, ∀ m' ∈ ms, ∀ k v v', m.lookup k = some v → m'.lookup k = some v' → v = v'

theorem lookup_foldl_mergeInto_of_agree {ms : List GoMap} (hag : Agree ms) (k v : String) :
    (ms.foldl mergeInto ∅).lookup k = some v ↔ ∃ m ∈ ms, m.lookup k = some v := by
  constructor
  · intro h
    simpa using lookup_foldl_mergeInto_source h
  · rintro ⟨m, hm, hv⟩
    cases h : (ms.foldl mergeInto ∅).lookup k with
    | none => rw [((lookup_foldl_mergeInto_eq_none k ms ∅).mp h).2 m hm] at hv; cases hv
    | some w =>
      obtain ⟨m', hm', hw⟩ := (lookup_foldl_mergeInto_source h).resolve_left (by simp)
      rw [hag m hm m' hm' k v w hv hw]

/-- Maps that agree on their shared keys are copied into one map the same in every order. -/
theorem lookup_foldl_mergeInto_perm {ms ms' : List GoMap} (hp : ms.Perm ms') (hag : Agree ms) (k : String) :
    (ms.foldl mergeInto ∅).lookup k = (ms'.foldl mergeInto ∅).lookup k := by
  have hag' : Agree ms' := fun m hm m' hm' => hag m (hp.mem_iff.mpr hm) m' (hp.mem_iff.mpr hm')
  refine Option.ext fun v => ?_
  rw [Option.mem_def, Option.mem_def, lookup_foldl_mergeInto_of_agree hag, lookup_foldl_mergeInto_of_agree hag']
  exact exists_congr fun m => and_congr_left' hp.mem_iff

/-- All copies of one map agree. -/
theorem agree_of_eq {ms : List GoMap} (m₀ : GoMap) (h : ∀ m ∈ ms, m = m₀) : Agree ms := by
  intro m hm m' hm' k v v' hv hv'
  rw [h m hm] at hv
  rw [h m' hm'] at hv'
  exact Option.some_inj.mp (hv.symm.trans hv')

theorem lookup_singleton (a b k : String) :
    (AList.singleton a b : GoMap).lookup k = if k = a then some b else none := by
  rw [← AList.insert_empty]
  by_cases hk : k = a
  · rw [hk, AList.lookup_insert, if_pos rfl]
  · rw [AList.lookup_insert_ne hk, AList.lookup_empty, if_neg hk]

/-! ## SQLFingerprint -/

theorem foldl_collectStep (respC : List (Option Proxy.SQLFingerprint)) (acc : GoMap × GoMap) :
    respC.foldl collectStep acc =
      (((respC.filterMap id).map Proxy.SQLFingerprint.SlowSQL).foldl mergeInto acc.1,
        ((respC.filterMap id).map Proxy.SQLFingerprint.ErrorSQL).foldl mergeInto acc.2) := by
  induction respC generalizing acc with
  | nil => rfl
  | cons r respC ih => cases r <;> simp [collectStep, ih]

variable {env : Env} {cfg : CCConfig} {cluster : String} {done : List Event}

theorem exec_SQLFingerprint (sched : Schedule) (name : String) {ps : List ProxyMonitorMetric}
    (hps : env.ListProxyMonitorMetrics done (NewClient cfg cluster) = .ok ps) :
    exec (SQLFingerprint env sched name cfg cluster) done =
      (.ok (collectSQLFingerprints (sched.order (sentSQLFingerprints env ps name))),
        done ++ [⟨.ListProxyMonitorMetrics, true⟩]) := by
  rw [SQLFingerprint, exec_bind, exec_issue, hps]
  rfl

/-- The statements of one kind (`f`) that the answers received in the order of `sched`
leave in a map. -/
theorem mem_received (sched : Schedule) (l : List (Option Proxy.SQLFingerprint))
    (f : Proxy.SQLFingerprint → GoMap) (m : GoMap) :
    m ∈ ((sched.order l).filterMap id).map f ↔ ∃ r, some r ∈ l ∧ f r = m := by
  simp only [List.mem_map, List.mem_filterMap, id, (sched.perm l).mem_iff]
  exact ⟨fun ⟨r, ⟨_, h, rfl⟩, hm⟩ => ⟨r, h, hm⟩, fun ⟨r, h, hm⟩ => ⟨r, ⟨_, h, rfl⟩, hm⟩⟩

/-- A value the received answers leave in a map is one some answer gave. -/
theorem received_source (sched : Schedule) (l : List (Option Proxy.SQLFingerprint))
    (f : Proxy.SQLFingerprint → GoMap) {k v : String}
    (h : ((((sched.order l).filterMap id).map f).foldl mergeInto ∅).lookup k = some v) :
    ∃ r, some r ∈ l ∧ (f r).lookup k = some v := by
  obtain ⟨m, hm, hv⟩ := (lookup_foldl_mergeInto_source h).resolve_left (by simp)
  obtain ⟨r, hr, rfl⟩ := (mem_received sched l f m).mp hm
  exact ⟨r, hr, hv⟩

/-- **What `SQLFingerprint` gathers, in every order of the answers.** A fingerprint has a
slow (failed) statement exactly when some proxy that answered reported one for it, and the
statement kept is one such proxy gave. A failed listing returns its error. -/
theorem SQLFingerprint_entries (sched : Schedule) (name : String) :
    match env.ListProxyMonitorMetrics done (NewClient cfg cluster) with
    | .error e => exec (SQLFingerprint env sched name cfg cluster) done =
        (.error e, done ++ [⟨.ListProxyMonitorMetrics, false⟩])
    | .ok ps => ∃ slowSQLs errSQLs, exec (SQLFingerprint env sched name cfg cluster) done =
        (.ok (slowSQLs, errSQLs), done ++ [⟨.ListProxyMonitorMetrics, true⟩]) ∧
      ∀ k, (slowSQLs.lookup k = none ↔
          ∀ r, some r ∈ sentSQLFingerprints env ps name → r.SlowSQL.lookup k = none) ∧
        (∀ v, slowSQLs.lookup k = some v →
          ∃ r, some r ∈ sentSQLFingerprints env ps name ∧ r.SlowSQL.lookup k = some v) ∧
        (errSQLs.lookup k = none ↔
          ∀ r, some r ∈ sentSQLFingerprints env ps name → r.ErrorSQL.lookup k = none) ∧
        (∀ v, errSQLs.lookup k = some v →
          ∃ r, some r ∈ sentSQLFingerprints env ps name ∧ r.ErrorSQL.lookup k = some v) := by
  cases hps : env.ListProxyMonitorMetrics done (NewClient cfg cluster) with
  | error e =>
    rw [SQLFingerprint, exec_bind, exec_issue, hps]
    rfl
  | ok ps =>
  refine ⟨_, _, exec_SQLFingerprint sched name hps, fun k => ?_⟩
  simp only [collectSQLFingerprints, foldl_collectStep, lookup_foldl_mergeInto_eq_none, AList.lookup_empty,
    true_and, mem_received, forall_exists_index, and_imp, forall_apply_eq_imp_iff₂]
  exact ⟨fun v => received_source sched _ _, fun v => received_source sched _ _⟩

/-- Answers that agree on their shared keys leave the same map in every order of receipt. -/
theorem lookup_received_perm (sched sched' : Schedule) (l : List (Option Proxy.SQLFingerprint))
    (f : Proxy.SQLFingerprint → GoMap) (hag : Agree ((l.filterMap id).map f)) (k : String) :
    ((((sched.order l).filterMap id).map f).foldl mergeInto ∅).lookup k =
      ((((sched'.order l).filterMap id).map f).foldl mergeInto ∅).lookup k := by
  rw [← lookup_foldl_mergeInto_perm (((sched.perm l).filterMap id).map f).symm hag,
    ← lookup_foldl_mergeInto_perm (((sched'.perm l).filterMap id).map f).symm hag]

/-- **The gathered maps do not depend on the order of the answers** when the proxies that
answered give the same statement for every fingerprint two of them share. -/
theorem SQLFingerprint_schedule_independent (sched sched' : Schedule) (name : String)
    {ps : List ProxyMonitorMetric} (hps : env.ListProxyMonitorMetrics done (NewClient cfg cluster) = .ok ps)
    (hslow : Agree (((sentSQLFingerprints env ps name).filterMap id).map Proxy.SQLFingerprint.SlowSQL))
    (herr : Agree (((sentSQLFingerprints env ps name).filterMap id).map Proxy.SQLFingerprint.ErrorSQL)) :
    ∃ slowSQLs errSQLs slowSQLs' errSQLs',
      exec (SQLFingerprint env sched name cfg cluster) done =
        (.ok (slowSQLs, errSQLs), done ++ [⟨.ListProxyMonitorMetrics, true⟩]) ∧
      exec (SQLFingerprint env sched' name cfg cluster) done =
        (.ok (slowSQLs', errSQLs'), done ++ [⟨.ListProxyMonitorMetrics, true⟩]) ∧
      ∀ k, slowSQLs.lookup k = slowSQLs'.lookup k ∧ errSQLs.lookup k = errSQLs'.lookup k := by
  refine ⟨_, _, _, _, exec_SQLFingerprint sched name hps, exec_SQLFingerprint sched' name hps, fun k => ?_⟩
  simp only [collectSQLFingerprints, foldl_collectStep]
  exact ⟨lookup_received_perm sched sched' _ _ hslow k, lookup_received_perm sched sched' _ _ herr k⟩

/-- The schedule that hands the sends on in the reverse of the order they were started in. -/
def reverseSchedule : Schedule := ⟨List.reverse, fun l => List.reverse_perm l⟩

/-- The schedule that hands the sends on in the order they were started in. -/
def inOrderSchedule : Schedule := ⟨id, fun l => List.Perm.refl l⟩

theorem SQLFingerprint_schedule_independent_acking :
    (ackingEnv.ListProxyMonitorMetrics [] (NewClient ccConfig "c") = .ok twoProxies ∧
      Agree (((sentSQLFingerprints ackingEnv twoProxies "db").filterMap id).map Proxy.SQLFingerprint.SlowSQL) ∧
      Agree (((sentSQLFingerprints ackingEnv twoProxies "db").filterMap id).map Proxy.SQLFingerprint.ErrorSQL)) ∧
    ∃ slowSQLs errSQLs slowSQLs' errSQLs',
      exec (SQLFingerprint ackingEnv reverseSchedule "db" ccConfig "c") [] =
        (.ok (slowSQLs, errSQLs), [] ++ [⟨.ListProxyMonitorMetrics, true⟩]) ∧
      exec (SQLFingerprint ackingEnv inOrderSchedule "db" ccConfig "c") [] =
        (.ok (slowSQLs', errSQLs'), [] ++ [⟨.ListProxyMonitorMetrics, true⟩]) ∧
      ∀ k, slowSQLs.lookup k = slowSQLs'.lookup k ∧ errSQLs.lookup k = errSQLs'.lookup k :=
  have hps : ackingEnv.ListProxyMonitorMetrics [] (NewClient ccConfig "c") = .ok twoProxies := rfl
  have hslow := agree_of_eq (AList.singleton "f1" "select 1")
    (by simp [sentSQLFingerprints, ackingEnv, twoProxies])
  have herr := agree_of_eq ∅ (by simp [sentSQLFingerprints, ackingEnv, twoProxies])
  ⟨⟨hps, hslow, herr⟩, SQLFingerprint_schedule_independent reverseSchedule inOrderSchedule "db" hps hslow herr⟩

/-! ## ProxyConfigFingerprint -/

theorem mem_sentConfigFingerprints {ps : List ProxyMonitorMetric} {m : GoMap} :
    m ∈ sentConfigFingerprints env ps ↔
      ∃ i p, ps[i]? = some p ∧ m = AList.singleton p.host (env.QueryProxyConfigFingerprint i p.host) := by
  simp only [sentConfigFingerprints, List.mem_map, Prod.exists, List.mem_enum_iff_getElem?]
  exact ⟨fun ⟨i, p, h, hm⟩ => ⟨i, p, h, hm.symm⟩, fun ⟨i, p, h, hm⟩ => ⟨i, p, h, hm.symm⟩⟩

/-- Two proxies of a listing with distinct hosts that have the same host are the same. -/
theorem index_eq_of_host_eq {ps : List ProxyMonitorMetric} (hnd : (ps.map ProxyMonitorMetric.host).Nodup)
    {i j : Nat} {p p' : ProxyMonitorMetric} (hi : ps[i]? = some p) (hj : ps[j]? = some p')
    (hh : p.host = p'.host) : i = j ∧ p = p' := by
  obtain ⟨hi', rfl⟩ := List.getElem?_eq_some_iff.mp hi
  obtain ⟨hj', rfl⟩ := List.getElem?_eq_some_iff.mp hj
  have hi₁ : i < (ps.map ProxyMonitorMetric.host).length := by simpa using hi'
  have hj₁ : j < (ps.map ProxyMonitorMetric.host).length := by simpa using hj'
  have : (ps.map ProxyMonitorMetric.host)[i] = (ps.map ProxyMonitorMetric.host)[j] := by simpa using hh
  obtain rfl := (List.Nodup.getElem_inj_iff hnd).mp this
  exact ⟨rfl, rfl⟩

theorem exec_ProxyConfigFingerprint (sched : Schedule) {ps : List ProxyMonitorMetric}
    (hps : env.ListProxyMonitorMetrics done (NewClient cfg cluster) = .ok ps) :
    exec (ProxyConfigFingerprint env sched cfg cluster) done =
      (.ok ((sched.order (sentConfigFingerprints env ps)).foldl mergeInto ∅),
        done ++ [⟨.ListProxyMonitorMetrics, true⟩]) := by
  rw [ProxyConfigFingerprint, exec_bind, exec_issue, hps]
  rfl

/-- **Each host maps to its own proxy's fingerprint, in every order of the answers**, when
the listed hosts are distinct; the map has exactly the listed hosts as keys. -/
theorem ProxyConfigFingerprint_hosts (sched : Schedule) {ps : List ProxyMonitorMetric}
    (hps : env.ListProxyMonitorMetrics done (NewClient cfg cluster) = .ok ps)
    (hnd : (ps.map ProxyMonitorMetric.host).Nodup) :
    ∃ r, exec (ProxyConfigFingerprint env sched cfg cluster) done =
        (.ok r, done ++ [⟨.ListProxyMonitorMetrics, true⟩]) ∧
      (∀ k, k ∈ r ↔ k ∈ ps.map ProxyMonitorMetric.host) ∧
      ∀ i (hi : i < ps.length), r.lookup ps[i].host = some (env.QueryProxyConfigFingerprint i ps[i].host) := by
  have hmem := fun m => (sched.perm (sentConfigFingerprints env ps)).mem_iff (a := m)
  have hag : Agree (sched.order (sentConfigFingerprints env ps)) := by
    intro m hm m' hm' k v v' hv hv'
    obtain ⟨i, p, hi, rfl⟩ := mem_sentConfigFingerprints.mp ((hmem m).mp hm)
    obtain ⟨j, p', hj, rfl⟩ := mem_sentConfigFingerprints.mp ((hmem m').mp hm')
    rw [lookup_singleton] at hv hv'
    split_ifs at hv hv' with hk hk'
    obtain ⟨rfl, rfl⟩ := index_eq_of_host_eq hnd hi hj (hk.symm.trans hk')
    exact Option.some_inj.mp (hv.symm.trans hv')
  refine ⟨_, exec_ProxyConfigFingerprint sched hps, fun k => ?_, fun i hi => ?_⟩
  · rw [← AList.lookup_isSome, Option.isSome_iff_ne_none, Ne, lookup_foldl_mergeInto_eq_none]
    simp only [AList.lookup_empty, true_and, not_forall, hmem, mem_sentConfigFingerprints, List.mem_map]
    constructor
    · rintro ⟨_, ⟨i, p, hi, rfl⟩, hk⟩
      rw [lookup_singleton] at hk
      split_ifs at hk with hk'
      · exact ⟨p, List.mem_iff_getElem?.mpr ⟨i, hi⟩, hk'.symm⟩
      · exact absurd rfl hk
    · rintro ⟨p, hp, rfl⟩
      obtain ⟨i, hi⟩ := List.getElem?_of_mem hp
      exact ⟨_, ⟨i, p, hi, rfl⟩, by simp [lookup_singleton]⟩
  · rw [lookup_foldl_mergeInto_of_agree hag]
    exact ⟨_, (hmem _).mpr (mem_sentConfigFingerprints.mpr ⟨i, ps[i], List.getElem?_eq_getElem hi, rfl⟩),
      by simp [lookup_singleton]⟩

theorem ProxyConfigFingerprint_hosts_acking :
    (ackingEnv.ListProxyMonitorMetrics [] (NewClient ccConfig "c") = .ok twoProxies ∧
      (twoProxies.map ProxyMonitorMetric.host).Nodup) ∧
    ∃ r, exec (ProxyConfigFingerprint ackingEnv reverseSchedule ccConfig "c") [] =
        (.ok r, [] ++ [⟨.ListProxyMonitorMetrics, true⟩]) ∧
      (∀ k, k ∈ r ↔ k ∈ twoProxies.map ProxyMonitorMetric.host) ∧
      ∀ i (hi : i < twoProxies.length),
        r.lookup twoProxies[i].host = some (ackingEnv.QueryProxyConfigFingerprint i twoProxies[i].host) :=
  have hps : ackingEnv.ListProxyMonitorMetrics [] (NewClient ccConfig "c") = .ok twoProxies := rfl
  have hnd : (twoProxies.map ProxyMonitorMetric.host).Nodup := by decide
  ⟨⟨hps, hnd⟩, ProxyConfigFingerprint_hosts reverseSchedule hps hnd⟩

end Service

end GoSharding
