import ExprLang.Proofs.Chain.Reading
import ExprLang.Proofs.Session.Room

/-!
# Sources that no host has room for

The parser bounds the nesting of groups and blocks only, and a chain of operators is as deep a tree
as it is long. So for every host there is a clean source of one line that it has no room for, and
listing it breaks down (`Host.present_breaks_down`).
-/

namespace ExprLang

/-- The number one in a chain. -/
def Operand.one : Operand := ⟨[], .integer "1", []⟩

/-- A sum of ones with so many operators. -/
def Chain.sum (operators : Nat) : Chain := ⟨.one, List.replicate operators ("+", .one)⟩

/-- The tree of a sum of ones. -/
def Expr.sum : Nat → Expr
  | 0 => .integer 1 .origin
  | operators + 1 => .binary "+" (Expr.sum operators) (.integer 1 .origin) .origin

/-- A sum of ones can stand in a source. -/
theorem Chain.sum_proper (operators : Nat) : (Chain.sum operators).Proper := by
  have one : Operand.one.Proper := by decide
  refine ⟨one, fun entry found => ?_⟩
  obtain rfl := List.eq_of_mem_replicate found
  exact ⟨by decide, one⟩

/-- A sum of ones is added up from the left. -/
theorem Chain.sum_arranges (operators : Nat) : (Chain.sum operators).Arranges (.sum operators) := by
  have operation : ∀ operators, ∀ inner ∈ (Expr.sum operators).operation?, inner = "+" := by
    intro operators inner found
    cases operators with
    | zero => cases found
    | succ operators => exact (Option.some.inj found).symm
  induction operators with
  | zero => exact ⟨rfl, trivial⟩
  | succ operators ih =>
    obtain ⟨pieces, arranged⟩ := ih
    refine ⟨?_, ?_, nofun, arranged, trivial⟩
    · have written : (Chain.sum (operators + 1)).pieces =
          (Chain.sum operators).pieces ++ .between "+" :: Operand.one.pieces := by
        simp [Chain.pieces, Chain.sum, List.replicate_succ']
      rw [Expr.sum, Expr.pieces, pieces, written, List.map_append]
      rfl
    · intro inner found
      rw [operation operators inner found]
      decide

/-- Every operator of a sum takes room for another part. -/
theorem Expr.sum_reach (host : Host) (operators : Nat) :
    operators * host.cost .part ≤ (Expr.sum operators).reach host := by
  induction operators with
  | zero => simp
  | succ operators ih =>
    rw [Expr.sum, Expr.reach, Nat.succ_mul]
    omega

/-- On every host where writing a part takes room there is a clean source that was read and cannot
be written. -/
theorem Host.present_breaks_down {host : Host} (costs : 0 < host.cost .part) :
    ∃ source parsed, parse source = .ok parsed ∧ parsed.diagnostics = [] ∧
      (host.present .program false source).breakdown = some host.overflow := by
  have proper := Chain.sum_proper host.places
  obtain ⟨parsed, tree, position, ran, clean, statements, -, unique⟩ :=
    Parser.parse_spelled_chain proper (Chain.spelled proper)
  have same := (Expr.same_iff _ _).mp (unique _ (Chain.sum_arranges host.places))
  have reach : (Expr.sum host.places).reach host = tree.reach host := by
    rw [← Expr.reach_unplaced, same, Expr.reach_unplaced]
  have exceeds : ¬ parsed.program.Fits host false := by
    intro fits
    have each : ∀ statement ∈ parsed.program.statements, statement.Fits host := fits
    have room := each (.expression tree position) (by simp [statements])
    have deep := Expr.sum_reach host host.places
    have places := Nat.le_mul_of_pos_right host.places costs
    rw [Stmt.Fits, Stmt.reach] at room
    omega
  obtain ⟨first, cut⟩ := cut_of_not_fits exceeds
  have shown : host.present .program false (Chain.sum host.places).text =
      host.list false (parseText (Chain.sum host.places).text) := rfl
  have whole := Parser.parse_eq (Parser.nonempty_of_parse ran)
  obtain rfl : parseText (Chain.sum host.places).text = parsed :=
    Except.ok.inj (whole.symm.trans ran)
  refine ⟨_, _, ran, clean, ?_⟩
  rw [shown, list_of_cut cut]

end ExprLang
