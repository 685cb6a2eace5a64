import Mathlib.Data.List.Basic

/-!
# Generating the statements of a sharded query

`GenerateSql` restores the sharding values of a statement; without any it runs the
statement as it is (`UsageRaw`). Otherwise it opens a runtime over the shards and `gen`
walks it: at each position `Next` moves to, the explain restores the statement, and the
position's data source and bind variables go with it into one `ScatterCommand`.

The runtime and the explain are outside the sources; the model sees the runtime through its
states, and the explain through the statement it restores at a position. `gen` runs on fuel,
since it is the runtime that decides when `Next` stops: once the runtime has stopped after
visiting positions `ps`, enough fuel gives the commands of `ps`, in order, or the first
restore error (`gen_visits`).
-/

namespace GoSharding

namespace Gen

/-- `Usage` of a `SqlGenResult`: the statement runs as it is, or is scattered over shards. -/
inductive Usage
  | UsageRaw
  | UsageShard
  deriving DecidableEq, Repr

/-- `ScatterCommand`: a statement for one data source, with its bind variables. -/
structure ScatterCommand (β : Type) where
  DataSource : String
  SqlCommand : String
  Vars : List β
  deriving DecidableEq, Repr

structure SqlGenResult (β : Type) where
  Usage : Usage
  Commands : List (ScatterCommand β)
  deriving DecidableEq, Repr

/-- The `genRuntime` as `gen` reads it, over its states `σ`: `Next` moves to the next
position, or reports that there is none; a position has a data source `currentDb` and the
bind variables `GetCurrentBindVariables` returns there. -/
structure Runtime (σ β : Type) where
  Next : σ → Option σ
  currentDb : σ → String
  GetCurrentBindVariables : σ → List β

variable {σ β V : Type}

/-- `gen(sqlExplain, runtime)` from the runtime's state `s`, with the commands `cmds` made so
far; `RestoreSql` is the statement `sqlExplain.RestoreSql(runtime)` restores at a position.
It is `none` when the fuel runs out before `Next` stops. -/
def gen (runtime : Runtime σ β) (RestoreSql : σ → Except String String) :
    Nat → σ → List (ScatterCommand β) → Option (Except String (SqlGenResult β))
  | 0, _, _ => none
  | fuel + 1, s, cmds =>
    match runtime.Next s with
    | none => some (.ok ⟨.UsageShard, cmds⟩)
    | some s =>
      match RestoreSql s with
      | .error e => some (.error e)
      | .ok sql =>
        gen runtime RestoreSql fuel s (cmds ++ [⟨runtime.currentDb s, sql, runtime.GetCurrentBindVariables s⟩])

/-- What `GenerateSql` uses of the explain of a statement and of `NewRuntime`, with the
sharding values of type `V` and the runtime's states `σ`. `RestoreSql` is read after
`SetVars`. -/
structure Explain (σ β V : Type) where
  RestoreShardingValues : List β → Except String (List V)
  NewRuntime : String → List V → List β → Except String σ
  runtime : Runtime σ β
  SetVars : List β → Option String
  RestoreSql : σ → Except String String

/-- `GenerateSql(defaultDataSource, expl, bindVariables)`, with `gen` run on `fuel`. -/
def GenerateSql (defaultDataSource : String) (expl : Explain σ β V) (bindVariables : List β) (fuel : Nat) :
    Option (Except String (SqlGenResult β)) :=
  match expl.RestoreShardingValues bindVariables with
  | .error vErr => some (.error vErr)
  | .ok values =>
    if values.length = 0 then some (.ok ⟨.UsageRaw, []⟩)
    else
      match expl.NewRuntime defaultDataSource values bindVariables with
      | .error err => some (.error err)
      | .ok runtime =>
        match expl.SetVars bindVariables with
        | some err => some (.error err)
        | none => gen expl.runtime expl.RestoreSql fuel runtime []

/-! ## The positions of a runtime -/

/-- From the state `s`, `Next` moves through the positions `ps` in order and then stops. -/
def Visits (runtime : Runtime σ β) : σ → List σ → Prop
  | s, [] => runtime.Next s = none
  | s, p :: ps => runtime.Next s = some p ∧ Visits runtime p ps

/-- The command `gen` makes at the position `p`, or the error restoring its statement. -/
def command (runtime : Runtime σ β) (RestoreSql : σ → Except String String) (p : σ) :
    Except String (ScatterCommand β) :=
  (RestoreSql p).map fun sql => ⟨runtime.currentDb p, sql, runtime.GetCurrentBindVariables p⟩

/-- **`gen` walks the runtime's positions.** Once the runtime stops after the positions `ps`,
any fuel beyond their number gives the commands of `ps`, one for each in order, after those
made before; or the error of the first position whose statement fails to restore. -/
theorem gen_visits (runtime : Runtime σ β) (RestoreSql : σ → Except String String) {s : σ} {ps : List σ}
    (hv : Visits runtime s ps) {fuel : Nat} (hf : ps.length < fuel) (cmds : List (ScatterCommand β)) :
    gen runtime RestoreSql fuel s cmds =
      some ((ps.mapM (command runtime RestoreSql)).map fun new => ⟨.UsageShard, cmds ++ new⟩) := by
  induction ps generalizing s fuel cmds with
  | nil =>
    obtain ⟨fuel, rfl⟩ := Nat.exists_eq_add_of_lt hf
    rw [gen, show runtime.Next s = none from hv, List.mapM_nil]
    show _ = some (.ok ⟨_, cmds ++ []⟩)
    rw [List.append_nil]
  | cons p ps ih =>
    obtain ⟨hn, hv⟩ := hv
    obtain ⟨fuel, rfl⟩ : ∃ n, fuel = n + 1 := ⟨fuel - 1, by simp at hf; omega⟩
    rw [List.mapM_cons]
    cases hr : RestoreSql p with
    | error e =>
      simp only [gen, hn, hr, command]
      rfl
    | ok sql =>
      simp only [gen, hn, hr, command, ih hv (by simpa using hf)]
      cases ps.mapM (command runtime RestoreSql) with
      | error e => rfl
      | ok l =>
        simp [Except.map, bind, Except.bind, pure, Except.pure]

/-- A runtime whose states number the positions, from `0` to `2`, on the data sources
`db1` and `db2`. -/
def twoShards : Runtime Nat Nat where
  Next n := if n < 2 then some (n + 1) else none
  currentDb n := "db" ++ toString n
  GetCurrentBindVariables _ := []

theorem gen_visits_twoShards :
    (Visits twoShards 0 [1, 2] ∧ [1, 2].length < 3) ∧
    gen twoShards (fun _ => .ok "select 1") 3 0 [] =
      some (([1, 2].mapM (command twoShards fun _ => .ok "select 1")).map fun new => ⟨.UsageShard, [] ++ new⟩) :=
  have hv : Visits twoShards 0 [1, 2] := ⟨rfl, rfl, rfl⟩
  ⟨⟨hv, by decide⟩, gen_visits twoShards _ hv (by decide) []⟩

end Gen

end GoSharding
