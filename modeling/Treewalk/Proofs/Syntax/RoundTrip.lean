import Mathlib
import Treewalk.Proofs.Syntax.TooDeep
import Treewalk.Proofs.Syntax.ParsedNames
/-!
# Reading printed programs back

The printer and the parser agree on every well-formed program as far as the nesting limit lets
them: the printed text of a program parses back to it, up to positions, exactly when the
program nests at most `maxNesting` deep, and a deeper one is refused with the depth error,
never as incomplete input. In the other direction, whatever `parse` returns is well formed, so
the round trip covers every program the parser can produce.

A chain of assignments `x = (x = (… 0.1))` nests two levels per link, so six hundred links are
already too deep for the limit of a thousand. The literal at its end is the double nearest to
one tenth, which the printer writes with all of its fifty-five decimals and the parser rounds
back to itself.
-/
open Treewalk.Parser

namespace Treewalk

/-- `x = (x = (… (0.1)))` with `n` assignments. -/
def assignChain : Nat → Expr
  | 0 => .num (Binary64.ofRatio false 1 10) default
  | n + 1 => .assign (.var "x" default) (assignChain n)

theorem assignChain_nesting (n : Nat) : (assignChain n).nesting = 2 * n + 1 := by
  induction n with
  | zero => rfl
  | succ n ih =>
    simp only [assignChain, Expr.nesting, Target.nesting, ih]
    omega

theorem assignChain_wellFormed (n : Nat) : (assignChain n).wellFormed = true := by
  have hx : Lexer.isName "x" = true := by decide
  induction n with
  | zero => exact Binary64.isLiteral_ofRatio 1 10
  | succ n ih => simp [assignChain, Expr.wellFormed, Target.wellFormed, ih, hx]

/-- The printed text of a well-formed program parses back to it, up to positions, when it
nests at most `maxNesting` deep, and fails with the depth error (not incomplete) when it nests
deeper; and every program that `parse` returns is well formed. -/
theorem parse_print_roundTrip :
    (∀ p : Program, p.wellFormed = true →
      (p.nesting ≤ maxNesting → ∃ q, parse p.print = .ok q ∧ q.erase = p.erase) ∧
      (maxNesting < p.nesting → Fails (parse p.print) (TooDeep maxNesting))) ∧
    ∀ (src : String) (q : Program), parse src = .ok q → q.wellFormed = true :=
  ⟨fun _ hw => ⟨parse_print_of_nesting_le hw, parse_print_of_nesting_gt hw⟩,
    fun _ _ h => parse_wellFormed h⟩

/-- A short chain reads back, and what it reads back as is well formed; a chain of six hundred
links is refused as too deep. -/
theorem parse_print_assignChain :
    (∃ q, parse (Program.print [.expr (assignChain 3)]) = .ok q ∧ q.wellFormed = true ∧
      q.erase = Program.erase [.expr (assignChain 3)]) ∧
    Fails (parse (Program.print [.expr (assignChain 600)])) (TooDeep maxNesting) := by
  have hw : ∀ n, Program.wellFormed [.expr (assignChain n)] = true := fun n => by
    simp [Program.wellFormed, Stmt.allWellFormed, Stmt.wellFormed, assignChain_wellFormed]
  have hn : ∀ n, Program.nesting [.expr (assignChain n)] = 2 * n + 1 := fun n => by
    simp [Program.nesting, Stmt.listNesting, Stmt.nesting, assignChain_nesting]
  obtain ⟨q, hq, he⟩ := ((parse_print_roundTrip.1 _ (hw 3)).1 (by rw [hn]; decide))
  refine ⟨⟨q, hq, parse_print_roundTrip.2 _ q hq, he⟩, ?_⟩
  exact (parse_print_roundTrip.1 _ (hw 600)).2 (by rw [hn]; decide)

/-- Well formed but too deep: the printed chain of six hundred assignments does not parse. -/
theorem parse_print_assignChain_fails :
    Program.wellFormed [.expr (assignChain 600)] = true ∧
      ∀ q, parse (Program.print [.expr (assignChain 600)]) ≠ .ok q := by
  have hn : Program.nesting [.expr (assignChain 600)] = 1201 := by
    simp [Program.nesting, Stmt.listNesting, Stmt.nesting, assignChain_nesting]
  have hw : Program.wellFormed [.expr (assignChain 600)] = true := by
    simp [Program.wellFormed, Stmt.allWellFormed, Stmt.wellFormed, assignChain_wellFormed]
  refine ⟨hw, fun q hq => ?_⟩
  obtain ⟨e, he, -⟩ := parse_print_of_nesting_gt hw (by rw [hn]; decide)
  rw [he] at hq
  cases hq

end Treewalk
