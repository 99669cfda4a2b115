import Mathlib.Data.List.Nodup
import Mathlib.Data.List.Perm.Subperm
import Mathlib.Logic.Relation

/-!
# Worklist exploration of a finite graph

A search that keeps a stack of nodes still to expand and the list of nodes reached so far.
`explore` marks a node when it is pushed and leaves its seeds unmarked, `visit` marks it when it is
popped.

## Main results

* `visit_sound` — whatever the fuel, only nodes reachable from the stack are visited
-/

namespace OraDesktop.Explore

variable {α : Type*} [DecidableEq α]

/-- The items not reached yet, each once and in order. -/
def fresh (reached : List α) : List α → List α
  | [] => []
  | x :: xs => if x ∈ reached then fresh reached xs else x :: fresh (x :: reached) xs

/-- Expands the stack: each popped node's successors that are new are reached and pushed. -/
def explore (next : α → List α) : Nat → List α → List α → List α
  | 0, _, reached => reached
  | _ + 1, [], reached => reached
  | fuel + 1, c :: stack, reached =>
    explore next fuel ((fresh reached (next c)).reverse ++ stack) (fresh reached (next c) ++ reached)

variable {next : α → List α}

def Next (next : α → List α) (a b : α) : Prop := b ∈ next a

/-! ### Marking on the way out -/

/-- Visits the stack: a popped node that was not visited is marked, and its successors pushed. -/
def visit (next : α → List α) : Nat → List α → List α → List α
  | 0, _, visited => visited
  | _ + 1, [], visited => visited
  | fuel + 1, c :: stack, visited =>
    if c ∈ visited then visit next fuel stack visited
    else visit next fuel ((next c).reverse ++ stack) (c :: visited)

/-- Only nodes visited before, or on the stack or reachable from it, are visited. -/
theorem visit_sound {y : α} : ∀ {fuel : Nat} {stack visited : List α},
    y ∈ visit next fuel stack visited →
      y ∈ visited ∨ ∃ x ∈ stack, Relation.ReflTransGen (Next next) x y
  | 0, _, _, h => .inl h
  | _ + 1, [], _, h => .inl h
  | fuel + 1, c :: stack, visited, h => by
    rw [visit] at h
    split at h
    · exact (visit_sound h).imp id fun ⟨x, hx, hxy⟩ => ⟨x, .tail _ hx, hxy⟩
    rcases visit_sound h with hy | ⟨x, hx, hxy⟩
    · rcases List.mem_cons.mp hy with rfl | hy
      · exact .inr ⟨_, .head _, .refl⟩
      · exact .inl hy
    · rcases List.mem_append.mp hx with hx | hx
      · exact .inr ⟨c, .head _, .head (List.mem_reverse.mp hx) hxy⟩
      · exact .inr ⟨x, .tail _ hx, hxy⟩

end OraDesktop.Explore
