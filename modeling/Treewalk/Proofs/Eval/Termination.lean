import Mathlib
import Treewalk.Cli.Run
import Treewalk.Config.Decode
/-!
# Runs under a depth limit terminate

A user call counts the calls already running. With `active` of them running under the limit
`d`, a call with the right number of arguments fails once `d ≤ active`, and otherwise runs its
body with `active + 1` calls running. Read as a recursion on that count, the rule is well
founded when the limit is positive: run on a clock that one call spends one tick of, it never
runs out of ticks once it starts with more than `d`, whatever running out would do, and what it
computes is the evaluator's call with `d - active` calls left to nest. Every other loop of a
program walks a list fixed when the loop starts, so a whole program run under a positive limit
terminates.

The command line always runs with a positive limit: the settings refuse a depth below one, so
does `-d`, and the default is 10000.
-/
namespace Treewalk

namespace Eval

/-- A user call under the depth rule, with `active` calls running and the limit `limit` (none
below one): the call checks its arity, then the limit, then runs the body in a new frame, where
`inner` serves the calls the body makes. -/
def countedCall (limit : Int) (inner : CallFn) (active : Nat) : CallFn := fun ref args => do
  let c := (← store).closures.getD ref default
  if args.length ≠ c.params.length then
    throw { fault := .arity c.citedName c.params.length args.length }
  if 0 < limit ∧ limit ≤ active then
    throw { fault := .callDepth limit.toNat c.citedName }
  let scope ← alloc (·.newFrame (some c.env))
  bindParams scope (c.params.zip args)
  let o ← execBlock inner scope c.body
  return o.value

/-- The depth rule on a clock: a call spends one tick, and a call with no tick left does what
`stuck` does. -/
def clockedCall (limit : Int) (stuck : CallFn) : Nat → Nat → CallFn
  | 0, _ => stuck
  | fuel + 1, active => countedCall limit (clockedCall limit stuck fuel (active + 1)) active

theorem throw_bind {α β : Type} (e : Error) (f : α → Eval β) :
    (throw e : Eval α) >>= f = throw e := rfl

variable (d : Nat)

theorem countedCall_at_limit (inner : CallFn) {active : Nat} (hd : 0 < d) (h : d ≤ active) :
    countedCall d inner active = callWith (some d) 0 := by
  have hlim : (0 : Int) < d ∧ (d : Int) ≤ active := by omega
  funext ref args
  simp only [countedCall, callWith, hlim, and_self, if_true, Int.toNat_natCast, Option.getD_some,
    throw_bind]

theorem countedCall_below_limit (b : Nat) {active : Nat} (h : active < d) :
    countedCall d (callWith (some d) b) active = callWith (some d) (b + 1) := by
  have hlim : ¬ ((0 : Int) < d ∧ (d : Int) ≤ active) := by omega
  funext ref args
  simp only [countedCall, callWith, hlim, if_false]

theorem clockedCall_eq (stuck : CallFn) (hd : 0 < d) :
    ∀ fuel active, active ≤ d → d < fuel + active →
      clockedCall d stuck fuel active = callWith (some d) (d - active)
  | 0, active, hle, hlt => absurd hlt (by omega)
  | fuel + 1, active, hle, hlt => by
    rw [clockedCall]
    by_cases heq : active = d
    · subst heq
      rw [countedCall_at_limit active _ hd le_rfl, Nat.sub_self]
    · have hin := clockedCall_eq stuck hd fuel (active + 1) (by omega) (by omega)
      rw [hin, countedCall_below_limit d _ (by omega)]
      congr 1
      omega

end Eval

namespace Config

theorem Settings.maxDepth_of_issues {s : Settings} (h : s.issues = []) : 1 ≤ s.maxDepth := by
  by_contra hlt
  simp [Settings.issues, Int.lt_of_not_ge hlt] at h

/-- Loaded settings always allow at least one call, whatever the YAML library answers. -/
theorem load_maxDepth {yaml : YamlDecode} {home : Option String} {path : String}
    {source : Source} {s : Settings} (h : load yaml home path source = .ok s) :
    1 ≤ s.maxDepth := by
  have hdef : 1 ≤ (Settings.defaults home).maxDepth := by
    simp [Settings.defaults, Session.defaultLimit]
  -- after the library: the defaults, an error, or settings whose numbers passed the check
  have hfinish : ∀ r, load.finish home path r = .ok s → 1 ≤ s.maxDepth := by
    intro r hr
    unfold load.finish at hr
    split at hr
    · cases hr
      exact hdef
    · cases hr
    · dsimp only at hr
      split at hr
      · cases hr
        exact Settings.maxDepth_of_issues ‹_›
      · cases hr
  unfold load at h
  split at h
  · cases h
    exact hdef
  · split at h
    · cases h
      exact hdef
    · exact hfinish _ h
    · exact hfinish _ h

end Config

namespace Cli

/-- Every run the command line plans has a positive depth limit, whatever the libraries
answer. -/
theorem plan_limit {lib : Libraries} {w : World} {args : List String} {p : Plan}
    (h : plan lib w args = .ok p) : ∃ d, 0 < d ∧ p.session.limit = some d := by
  unfold plan at h
  split at h
  · cases h
  · split at h
    · cases h
    · split at h
      · cases h
      · rename_i o _ _ loaded hload
        have hd : 1 ≤ (o.settle loaded).maxDepth := by
          simp only [Options.settle]
          split
          · omega
          · exact Config.load_maxDepth hload
        refine ⟨(o.settle loaded).maxDepth.toNat, by omega, ?_⟩
        dsimp only at h
        split at h
        all_goals (cases h; rfl)

end Cli

/-- Every program run under a positive depth limit terminates: the depth rule run on any clock
with more ticks than the limit computes the evaluator's run, whatever a call out of ticks would
do. The command line always runs under a positive limit. -/
theorem runProgram_terminates :
    (∀ d : Nat, 0 < d → ∀ (stuck : CallFn) (fuel : Nat), d < fuel → ∀ env prog,
      Eval.runProgram (some d) env prog =
        Outcome.value <$> Eval.execBlock (Eval.clockedCall d stuck fuel 0) env prog) ∧
    ∀ (lib : Cli.Libraries) (w : Cli.World) (args : List String) (p : Cli.Plan),
      Cli.plan lib w args = .ok p → ∃ d, 0 < d ∧ p.session.limit = some d := by
  refine ⟨fun d hd stuck fuel hf env prog => ?_, fun lib w args p h => Cli.plan_limit h⟩
  rw [Eval.clockedCall_eq d stuck hd fuel 0 (Nat.zero_le d) (by omega), Nat.sub_zero,
    Eval.runProgram, Option.getD_some, map_eq_bind_pure_comp]
  rfl

/-- A function that calls itself without end, run under the limit one on a clock of two ticks,
and a command line with no arguments and no settings file, read with `getoptsLib` and
`yamlDecode`. -/
theorem runProgram_terminates_selfCall :
    let call : Expr := .call (.ident "f" Pos.start) [] Pos.start
    let prog : Program := [.funcDecl "f" [] [.expr call] Pos.start, .expr call]
    let lib : Cli.Libraries := ⟨Cli.getoptsLib, Config.yamlDecode⟩
    let w : Cli.World := ⟨"lumen", none, none, fun _ => .absent, "", fun _ => 0, false⟩
    Eval.runProgram (some 1) 0 prog =
        Outcome.value <$> Eval.execBlock (Eval.clockedCall 1 (fun _ _ => pure .null) 2 0) 0 prog ∧
      ∃ p, Cli.plan lib w [] = .ok p ∧ ∃ d, 0 < d ∧ p.session.limit = some d := by
  intro call prog lib w
  refine ⟨runProgram_terminates.1 1 (by decide) _ 2 (by decide) 0 prog, ?_⟩
  cases hp : Cli.plan lib w [] with
  | error t =>
    rw [Cli.plan] at hp
    simp [lib, w, Cli.getoptsLib, Cli.getopts, Cli.defaultConfigPath,
      Cli.defaultConfigPath.fallback, Config.load, pure, Except.pure] at hp
  | ok p => exact ⟨p, rfl, runProgram_terminates.2 lib w [] p hp⟩

end Treewalk
