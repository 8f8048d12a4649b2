import Mathlib.Tactic.Common
import Mathlib.Data.List.Nodup

/-! # Doubly linked orders

A doubly linked list kept as two link fields per node, described by the order
it represents. The nodes live in whatever store the caller has; only the link
functions that the store induces are seen here. -/

namespace WarrenSdk

open List

/-- The links of every node of `order` name its neighbours in `order`. -/
structure LinkedOrder {α : Type u} (older newer : α → Option α) (order : List α) : Prop where
  nodup : order.Nodup
  neighbours : ∀ front node rest, order = front ++ node :: rest →
    older node = front.getLast? ∧ newer node = rest.head?

namespace LinkedOrder

variable {α : Type u} {older newer older' newer' : α → Option α}

private theorem getLast?_ne {front rest : List α} {node next : α}
    (nodup : (front ++ node :: next :: rest).Nodup) :
    (front ++ node :: next :: rest).getLast? ≠ some node := by
  intro link
  rw [List.getLast?_append_of_ne_nil _ (by simp), List.getLast?_cons_cons] at link
  have later : node ∈ next :: rest := mem_of_getLast? link
  exact (nodup_cons.mp (nodup_append.mp nodup).2.1).1 later

theorem nil : LinkedOrder older newer [] :=
  ⟨nodup_nil, fun front node rest equal => by simp at equal⟩

/-- Links outside an order do not matter to it. -/
theorem congr {order : List α} (linked : LinkedOrder older newer order)
    (olderAgree : ∀ node ∈ order, older' node = older node)
    (newerAgree : ∀ node ∈ order, newer' node = newer node) : LinkedOrder older' newer' order := by
  refine ⟨linked.nodup, ?_⟩
  intro front node rest equal
  have member : node ∈ order := by simp [equal]
  rw [olderAgree node member, newerAgree node member]
  exact linked.neighbours front node rest equal

/-- Taking a node out and joining its neighbours leaves the rest linked. -/
theorem unlink [DecidableEq α] {front rest : List α} {node : α}
    (linked : LinkedOrder older newer (front ++ node :: rest))
    (olderJoin : ∀ other ∈ front ++ rest, older' other =
      if newer node = some other then older node else older other)
    (newerJoin : ∀ other ∈ front ++ rest, newer' other =
      if older node = some other then newer node else newer other) :
    LinkedOrder older' newer' (front ++ rest) := by
  have nodup := linked.nodup
  rcases linked.neighbours front node rest rfl with ⟨nodeOlder, nodeNewer⟩
  rw [nodeOlder, nodeNewer] at olderJoin newerJoin
  refine ⟨nodup.sublist (by simp), ?_⟩
  intro before other after equal
  have member : other ∈ front ++ rest := by simp [equal]
  rw [olderJoin other member, newerJoin other member]
  -- `other` lies behind the removed node or in front of it.
  rcases append_eq_append_iff.mp equal with ⟨gap, rfl, rfl⟩ | ⟨gap, rfl, tail⟩
  · have links := linked.neighbours (front ++ node :: gap) other after (by simp)
    have notOlder : front.getLast? ≠ some other := by
      intro link
      have inFront := mem_of_getLast? link
      grind
    rw [links.1, links.2, if_neg notOlder]
    cases gap with
    | nil => simp
    | cons first gap =>
      have different : first ≠ other := by grind
      simp [different]
  · cases gap with
    | nil =>
      have behind : other :: after = rest := tail
      subst rest
      have links := linked.neighbours (before ++ [node]) other after (by simp)
      have notOlder : (before ++ []).getLast? ≠ some other := by
        intro link
        have inFront := mem_of_getLast? link
        grind
      rw [links.1, links.2, if_neg notOlder]
      simp
    | cons first gap =>
      simp only [cons_append, List.cons.injEq] at tail
      rcases tail with ⟨rfl, rfl⟩
      have links := linked.neighbours before other (gap ++ node :: rest) (by simp)
      have notNewer : rest.head? ≠ some other := by
        intro link
        have inRest := mem_of_head? link
        grind
      rw [links.1, links.2, if_neg notNewer]
      cases gap with
      | nil => simp
      | cons second gap =>
        rw [if_neg (getLast?_ne (nodup.sublist (by simp)))]
        simp

/-- A node linked behind the newest one extends the order at that end. -/
theorem append [DecidableEq α] {order : List α} {node : α}
    (linked : LinkedOrder older newer order) (fresh : node ∉ order)
    (nodeOlder : older' node = order.getLast?) (nodeNewer : newer' node = none)
    (olderAgree : ∀ other ∈ order, older' other = older other)
    (newerJoin : ∀ other ∈ order, newer' other =
      if order.getLast? = some other then some node else newer other) :
    LinkedOrder older' newer' (order ++ [node]) := by
  have nodup := linked.nodup
  refine ⟨by grind, ?_⟩
  intro front other rest equal
  rcases append_eq_append_iff.mp equal with ⟨gap, rfl, tail⟩ | ⟨gap, rfl, tail⟩
  · -- Only the new node stands at or after the end of the old order.
    cases gap with
    | nil =>
      simp only [nil_append, List.cons.injEq] at tail
      rcases tail with ⟨rfl, rfl⟩
      simp [nodeOlder, nodeNewer]
    | cons first gap => simp at tail
  · cases gap with
    | nil =>
      simp only [nil_append, List.cons.injEq] at tail
      rcases tail with ⟨rfl, rfl⟩
      simpa [nodeNewer] using nodeOlder
    | cons first gap =>
      simp only [cons_append, List.cons.injEq] at tail
      rcases tail with ⟨rfl, rfl⟩
      have member : other ∈ front ++ other :: gap := by simp
      have links := linked.neighbours front other gap rfl
      rw [olderAgree other member, newerJoin other member, links.1, links.2]
      cases gap with
      | nil => simp
      | cons second gap =>
        rw [if_neg (getLast?_ne nodup)]
        simp

end LinkedOrder

/-! ## Walking the links -/

def walkNewer {α : Type u} (newer : α → Option α) : Nat → Option α → List α
  | _, none => []
  | 0, some _ => []
  | fuel + 1, some node => node :: walkNewer newer fuel (newer node)

theorem LinkedOrder.walkNewer_eq {α : Type u} {older newer : α → Option α}
    {order : List α} (linked : LinkedOrder older newer order) {fuel : Nat}
    (enough : order.length ≤ fuel) :
    walkNewer newer fuel order.head? = order := by
  -- The walk is at the first node of a tail of the order.
  suffices tails : ∀ rest front fuel, order = front ++ rest →
      rest.length ≤ fuel → walkNewer newer fuel rest.head? = rest by
    exact tails order [] fuel rfl enough
  intro rest
  induction rest with
  | nil => intro front fuel _ _; simp [walkNewer]
  | cons node rest induction =>
    intro front fuel equal enough
    cases fuel with
    | zero => simp at enough
    | succ fuel =>
      have links := linked.neighbours front node rest equal
      have tail := induction (front ++ [node]) fuel (by simp [equal]) (by simpa using enough)
      rw [List.head?_cons, walkNewer, links.2, tail]

end WarrenSdk
