import Mathlib.Data.List.Nodup

/-!
# The Connection Registry

`state_list` of `ctcp.c` is an intrusive doubly linked list: each `ctcp_state` has a `next`
pointer and a `prev` pointer to the link cell that points at it (`state_list` itself or the
`next` field of the node before). `ctcp_init` pushes a fresh node in front and `ctcp_destroy`
unlinks one. `ctcp_timer` walks the list through `next`.

Memory is a heap of nodes by address with `state_list` beside it; only the two link fields of
a node are modelled (the rest of the record is `CtcpState`). An access to an address that holds
no node is undefined behaviour in C, and `none` here.

## Results

`Chain r c p xs` says that following `next` links from pointer `p`, stored in cell `c`, visits
exactly the addresses `xs`, each node's `prev` designating the cell that points at it. Over
every sequence of `ctcp_init` calls (at fresh addresses) and `ctcp_destroy` calls (on live
engines), `state_list` chains exactly the live engines, most recently created first, each once,
and every call on the way was defined.
-/

namespace Ctcp

/-! ## §1 Memory -/

/-- A link cell: `state_list`, or the `next` field of the node at an address. -/
inductive Cell where
  | head
  | next (a : Nat)
deriving DecidableEq, Repr

/-- The registry links of a `ctcp_state`: `next`, and `prev` (a `struct ctcp_state **`). -/
structure Node where
  next : Option Nat
  prev : Cell
deriving DecidableEq, Repr

/-- `state_list` and the heap of nodes (`none`: nothing allocated there). -/
structure Registry where
  state_list : Option Nat
  heap : Nat → Option Node

/-- The registry before the first connection. -/
def Registry.empty : Registry := ⟨none, fun _ => none⟩

/-- The pointer stored in a cell. -/
def Registry.readCell (r : Registry) : Cell → Option (Option Nat)
  | .head => some r.state_list
  | .next a => (r.heap a).map Node.next

/-- `*c = v` for a cell `c`. -/
def Registry.writeCell (r : Registry) : Cell → Option Nat → Option Registry
  | .head, v => some { r with state_list := v }
  | .next a, v =>
    (r.heap a).map fun n => { r with heap := Function.update r.heap a (some { n with next := v }) }

/-- `node->prev = c`. -/
def Registry.writePrev (r : Registry) (a : Nat) (c : Cell) : Option Registry :=
  (r.heap a).map fun n => { r with heap := Function.update r.heap a (some { n with prev := c }) }

/-! ## §2 Insertion and removal -/

/-- The registry half of `ctcp_init`, for the node `calloc` returned at address `a`: link it in
front of `state_list`. -/
def registerState (r : Registry) (a : Nat) : Option Registry :=
  -- `state->next = state_list; state->prev = &state_list;`
  let r₁ : Registry :=
    { r with heap := Function.update r.heap a (some ⟨r.state_list, .head⟩) }
  -- `if (state_list) state_list->prev = &state->next;`
  (match r₁.state_list with
   | some b => r₁.writePrev b (.next a)
   | none => some r₁).map fun r₂ : Registry =>
  -- `state_list = state;`
  { r₂ with state_list := some a }

/-- `ctcp_destroy` on the node at address `a`: unlink it and free it. -/
def ctcpDestroy (r : Registry) (a : Nat) : Option Registry :=
  (r.heap a).bind fun n =>
  -- `if (state->next) state->next->prev = state->prev;`
  (match n.next with
   | some b => r.writePrev b n.prev
   | none => some r).bind fun r₁ =>
  -- `*state->prev = state->next;`, reading the node again
  (r₁.heap a).bind fun n₁ =>
  (r₁.writeCell n₁.prev n₁.next).map fun r₂ : Registry =>
  -- `free(state);`
  { r₂ with heap := Function.update r₂.heap a none }

/-- The registry after unlinking and freeing the node `n` at `a`: the cell `n.prev` takes
`n.next`, and the node after takes `n.prev`. -/
def unlinked (r : Registry) (a : Nat) (n : Node) : Registry where
  state_list := if n.prev = .head then n.next else r.state_list
  heap y := if y = a then none else (r.heap y).map fun m =>
    { next := if n.prev = .next y then n.next else m.next,
      prev := if n.next = some y then n.prev else m.prev }

/-- **`ctcp_destroy` in closed form**, when the node, the node after it and the cell before it
are allocated and distinct. -/
theorem ctcpDestroy_eq {r : Registry} {a : Nat} {n : Node} (ha : r.heap a = some n)
    (hb : ∀ b, n.next = some b → b ≠ a ∧ r.heap b ≠ none)
    (hc : n.prev = .head ∨ ∃ p, n.prev = .next p ∧ p ≠ a ∧ n.next ≠ some p ∧ r.heap p ≠ none) :
    ctcpDestroy r a = some (unlinked r a n) := by
  obtain ⟨next, prev⟩ := n
  cases next with
  | none =>
    rcases hc with h | ⟨p, h, hpa, -, hp⟩ <;> simp only at h <;> subst h
    · simp [ctcpDestroy, ha, Registry.writeCell, unlinked]
      funext y; simp [Function.update_apply]
    · obtain ⟨m, hm⟩ := Option.ne_none_iff_exists'.mp hp
      simp [ctcpDestroy, ha, hm, Registry.writeCell, unlinked]
      funext y; simp only [Function.update_apply]
      split_ifs <;> subst_vars <;> simp_all [Function.update_apply, @eq_comm _ y]
  | some b =>
    obtain ⟨hba, hbn⟩ := hb b rfl
    obtain ⟨m, hm⟩ := Option.ne_none_iff_exists'.mp hbn
    rcases hc with h | ⟨p, h, hpa, hpb, hp⟩ <;> simp only at h <;> subst h
    · simp [ctcpDestroy, ha, hm, Registry.writeCell, Registry.writePrev, unlinked, hba.symm]
      funext y; simp only [Function.update_apply]
      split_ifs <;> subst_vars <;> simp_all [Function.update_apply, @eq_comm _ y]
    · obtain ⟨m', hm'⟩ := Option.ne_none_iff_exists'.mp hp
      have hpb' : p ≠ b := fun h => hpb (by rw [h])
      simp [ctcpDestroy, ha, hm, hm', Registry.writeCell, Registry.writePrev, unlinked, hba.symm,
        hpa.symm, hpb', Function.update_apply]
      funext y
      split_ifs <;> subst_vars <;> simp_all [Function.update_apply, @eq_comm _ y]

/-! ## §3 The chain -/

/-- `Chain r c p xs`: following `next` links from the pointer `p`, held in cell `c`, visits
exactly `xs` and ends in `NULL`; each node's `prev` designates the cell that points at it. -/
def Chain (r : Registry) : Cell → Option Nat → List Nat → Prop
  | _, none, [] => True
  | c, some a, b :: xs => a = b ∧ ∃ n, r.heap a = some n ∧ n.prev = c ∧ Chain r (.next a) n.next xs
  | _, _, _ => False

@[simp] theorem chain_none_nil (r : Registry) (c : Cell) : Chain r c none [] ↔ True := Iff.rfl

@[simp] theorem chain_none_cons (r : Registry) (c : Cell) (b : Nat) (xs : List Nat) :
    Chain r c none (b :: xs) ↔ False := Iff.rfl

@[simp] theorem chain_some_nil (r : Registry) (c : Cell) (a : Nat) :
    Chain r c (some a) [] ↔ False := Iff.rfl

@[simp] theorem chain_some_cons (r : Registry) (c : Cell) (a b : Nat) (xs : List Nat) :
    Chain r c (some a) (b :: xs) ↔
      a = b ∧ ∃ n, r.heap a = some n ∧ n.prev = c ∧ Chain r (.next a) n.next xs := Iff.rfl

/-- The chain reads only the nodes on it. -/
theorem Chain.frame {r r' : Registry} {c : Cell} {p : Option Nat} {xs : List Nat}
    (h : Chain r c p xs) (hr : ∀ y ∈ xs, r'.heap y = r.heap y) : Chain r' c p xs := by
  induction xs generalizing c p with
  | nil => cases p <;> simp_all
  | cons b xs ih =>
    cases p with
    | none => simp at h
    | some a =>
      obtain ⟨rfl, n, hn, hp, hc⟩ := h
      exact ⟨rfl, n, (hr a (List.mem_cons_self _ _)).trans hn, hp,
        ih hc fun y hy => hr y (List.mem_cons_of_mem _ hy)⟩

theorem Chain.head {r : Registry} {c : Cell} {p : Option Nat} {xs : List Nat}
    (h : Chain r c p xs) : p = xs.head? := by
  cases xs <;> cases p <;> simp_all

/-- Where a chain enters its segment after `pre`, starting from cell `c`. -/
def cellBefore : Cell → List Nat → Cell
  | c, [] => c
  | _, x :: xs => cellBefore (.next x) xs

theorem cellBefore_cons (c : Cell) (x : Nat) (xs : List Nat) :
    ∃ z ∈ x :: xs, cellBefore c (x :: xs) = .next z := by
  induction xs generalizing x with
  | nil => exact ⟨x, List.mem_singleton_self _, rfl⟩
  | cons y xs ih =>
    obtain ⟨z, hz, h⟩ := ih y
    exact ⟨z, List.mem_cons_of_mem _ hz, h⟩

/-- The node at `a` on a chain: its `prev` is the cell after the nodes before it, its `next`
the node after it. -/
theorem Chain.node {r : Registry} {c : Cell} {p : Option Nat} {pre post : List Nat} {a : Nat}
    (h : Chain r c p (pre ++ a :: post)) :
    ∃ n, r.heap a = some n ∧ n.prev = cellBefore c pre ∧ n.next = post.head? := by
  induction pre generalizing c p with
  | nil =>
    cases p with
    | none => simp at h
    | some x =>
      obtain ⟨rfl, n, hn, hp, hc⟩ := h
      exact ⟨n, hn, hp, hc.head⟩
  | cons x pre ih =>
    cases p with
    | none => simp at h
    | some y =>
      obtain ⟨rfl, n, -, -, hc⟩ := h
      exact ih hc

/-- `unlinked` leaves every node other than the freed one, the one after it and the one before
it as it was. -/
theorem unlinked_heap_of_ne {r : Registry} {a y : Nat} {n : Node} (hya : y ≠ a)
    (hp : n.prev ≠ .next y) (hn : n.next ≠ some y) : (unlinked r a n).heap y = r.heap y := by
  simp only [unlinked, hya, hp, hn, if_false]
  cases r.heap y <;> rfl

/-- **Unlinking a node from a chain** leaves the chain without it: the cell before it now
points at the node after it. -/
theorem Chain.unlink {r : Registry} {c : Cell} {p : Option Nat} {pre post : List Nat} {a : Nat}
    {n : Node} (h : Chain r c p (pre ++ a :: post)) (hn : r.heap a = some n)
    (hnd : (pre ++ a :: post).Nodup) (hc : ∀ y ∈ pre ++ a :: post, c ≠ .next y) :
    Chain (unlinked r a n) c (if pre = [] then n.next else p) (pre ++ post) := by
  obtain ⟨n', hn', hprev, hnext⟩ := h.node
  rw [hn] at hn'
  cases hn'
  induction pre generalizing c p with
  | nil =>
    cases p with
    | none => simp at h
    | some x =>
      obtain ⟨rfl, n₀, hn₀, -, hc'⟩ := h
      obtain rfl : n₀ = n := Option.some.inj (hn₀.symm.trans hn)
      simp only [List.nil_append, if_true] at hc hnd ⊢
      cases post with
      | nil => rw [hnext]; trivial
      | cons b ys =>
        rw [hnext] at hc' ⊢
        obtain ⟨-, m, hm, -, hrest⟩ := hc'
        simp only [List.nodup_cons, List.mem_cons, not_or] at hnd
        have hba : b ≠ x := Ne.symm hnd.1.1
        refine (chain_some_cons _ _ _ _ _).mpr ⟨rfl, { m with prev := c }, ?_, rfl,
          hrest.frame fun y hy => ?_⟩
        · simp [unlinked, hba, hm, hprev, hnext, hc b (by simp), cellBefore]
        · have hya : y ≠ x := fun h => hnd.1.2 (h ▸ hy)
          have hyb : y ≠ b := fun h => hnd.2.1 (h ▸ hy)
          exact unlinked_heap_of_ne hya (by rw [hprev]; exact hc y (by simp [hy]))
            (by rw [hnext]; simpa using Ne.symm hyb)
  | cons x₀ pre ih =>
    cases p with
    | none => simp at h
    | some x =>
      obtain ⟨rfl, m, hm, hmp, hc'⟩ := h
      simp only [List.cons_append, List.nodup_cons] at hnd
      have hx : x ∉ pre ∧ x ≠ a ∧ x ∉ post := by simpa [not_or] using hnd.1
      have ih' := ih hc' hnd.2 (fun z hz h => hnd.1 (by rw [Cell.next.inj h]; exact hz)) hprev
      simp only [List.cons_append, List.cons_ne_nil, if_false]
      have hnx : n.next ≠ some x := by
        rw [hnext]; intro h; exact hx.2.2 (List.mem_of_mem_head? h)
      have hpx : (n.prev = .next x) ↔ pre = [] := by
        cases pre with
        | nil => simpa [cellBefore] using hprev
        | cons z pre =>
          obtain ⟨w, hw, hcw⟩ := cellBefore_cons (.next x) z pre
          simp only [hprev.trans hcw, Cell.next.injEq, List.cons_ne_nil, iff_false]
          exact fun h => hx.1 (h ▸ hw)
      refine (chain_some_cons _ _ _ _ _).mpr
        ⟨rfl, { next := if pre = [] then n.next else m.next, prev := c }, ?_, rfl, ih'⟩
      simp only [unlinked, hx.2.1, if_false, hm, Option.map_some', hnx, hmp, hpx]

/-- A chain is what the walk along `next` from its pointer returns, in as many steps as it has
nodes. -/
def Registry.walk (r : Registry) : Nat → Option Nat → Option (List Nat)
  | _, none => some []
  | 0, some _ => none
  | k + 1, some a => (r.heap a).bind fun n => (r.walk k n.next).map (a :: ·)

theorem Chain.walk {r : Registry} {c : Cell} {p : Option Nat} {xs : List Nat}
    (h : Chain r c p xs) : r.walk xs.length p = some xs := by
  induction xs generalizing c p with
  | nil => cases p <;> simp_all [Registry.walk]
  | cons b xs ih =>
    cases p with
    | none => simp at h
    | some a =>
      obtain ⟨rfl, n, hn, -, hc⟩ := h
      simp [Registry.walk, hn, ih hc]

/-- On a chain whose cell holds its pointer, every node's `prev` cell holds the node. -/
theorem Chain.prev_cell {r : Registry} {c : Cell} {p : Option Nat} {xs : List Nat}
    (h : Chain r c p xs) (hc : r.readCell c = some p) :
    ∀ y ∈ xs, ∃ n, r.heap y = some n ∧ r.readCell n.prev = some (some y) := by
  induction xs generalizing c p with
  | nil => simp
  | cons b xs ih =>
    cases p with
    | none => simp at h
    | some a =>
      obtain ⟨rfl, n, hn, hp, hrest⟩ := h
      rintro y (_ | ⟨_, hy⟩)
      · exact ⟨n, hn, hp ▸ hc⟩
      · exact ih hrest (by simp [Registry.readCell, hn]) y hy

/-! ## §4 The invariant -/

/-- The registry links exactly the engines `xs`, most recent first. -/
structure RegInv (r : Registry) (xs : List Nat) : Prop where
  chain : Chain r .head r.state_list xs
  nodup : xs.Nodup
  /-- The allocated nodes are the engines of the chain. -/
  live : ∀ a, r.heap a ≠ none ↔ a ∈ xs

theorem regInv_empty : RegInv Registry.empty [] :=
  ⟨trivial, List.nodup_nil, by simp [Registry.empty]⟩

/-- **`ctcp_init` at a fresh address is defined and links the new engine in front.** -/
theorem RegInv.init {r : Registry} {xs : List Nat} (h : RegInv r xs) {a : Nat}
    (ha : r.heap a = none) : ∃ r', registerState r a = some r' ∧ RegInv r' (a :: xs) := by
  have hax : a ∉ xs := fun hx => (h.live a).mpr hx ha
  have hhead := h.chain.head
  cases hs : r.state_list with
  | none =>
    obtain rfl : xs = [] := by
      rw [hs] at hhead
      cases xs with
      | nil => rfl
      | cons => simp at hhead
    have hreg : registerState r a =
        some ⟨some a, Function.update r.heap a (some ⟨none, .head⟩)⟩ := by
      simp [registerState, hs]
    refine ⟨_, hreg, ⟨?_, by simp, fun y => ?_⟩⟩
    · simp
    · by_cases hy : y = a <;> simp [Function.update_apply, hy, h.live y]
  | some b =>
    rw [hs] at hhead
    obtain ⟨ys, rfl⟩ : ∃ ys, xs = b :: ys := by cases xs <;> simp_all
    have hc := h.chain
    rw [hs] at hc
    obtain ⟨-, m, hm, hmp, hrest⟩ := hc
    have hba : b ≠ a := fun e => hax (e ▸ List.mem_cons_self _ _)
    have hreg : registerState r a = some ⟨some a, Function.update
        (Function.update r.heap a (some ⟨some b, .head⟩)) b (some { m with prev := .next a })⟩ := by
      simp [registerState, hs, Registry.writePrev, Function.update_apply, hba, hm]
    have hnd := h.nodup
    simp only [List.nodup_cons] at hnd
    refine ⟨_, hreg, ⟨?_, List.nodup_cons.mpr ⟨hax, List.nodup_cons.mpr hnd⟩, fun y => ?_⟩⟩
    · refine (chain_some_cons _ _ _ _ _).mpr ⟨rfl, ⟨some b, .head⟩,
        by simp [Function.update_apply, hba.symm], rfl, (chain_some_cons _ _ _ _ _).mpr
          ⟨rfl, { m with prev := .next a }, by simp, rfl, hrest.frame fun y hy => ?_⟩⟩
      have hyb : y ≠ b := fun e => hnd.1 (e ▸ hy)
      have hya : y ≠ a := fun e => hax (e ▸ List.mem_cons_of_mem _ hy)
      simp [Function.update_apply, hya, hyb]
    · by_cases hy : y = a <;> by_cases hyb : y = b <;>
        simp [Function.update_apply, hy, hyb, h.live y, hba.symm]

/-- **`ctcp_destroy` on a live engine is defined and unlinks exactly it.** -/
theorem RegInv.destroy {r : Registry} {xs : List Nat} (h : RegInv r xs) {a : Nat}
    (ha : a ∈ xs) : ∃ r', ctcpDestroy r a = some r' ∧ RegInv r' (xs.erase a) := by
  obtain ⟨pre, post, rfl⟩ := List.append_of_mem ha
  have hnd := h.nodup
  obtain ⟨n, hn, hprev, hnext⟩ := h.chain.node
  have hapre : a ∉ pre := fun hx => (List.nodup_append.mp hnd).2.2 hx (List.mem_cons_self _ _)
  have hapost : a ∉ post := (List.nodup_cons.mp (List.nodup_append.mp hnd).2.1).1
  have herase : (pre ++ a :: post).erase a = pre ++ post := by
    rw [List.erase_append_right _ hapre, List.erase_cons_head]
  have hlive : ∀ y ∈ pre ++ a :: post, r.heap y ≠ none := fun y hy => (h.live y).mpr hy
  -- the cell before `a`: `state_list` when `a` is first, else the `next` of the node before
  have hcell : (n.prev = .head ↔ pre = []) ∧
      (pre ≠ [] → ∃ z ∈ pre, n.prev = .next z) := by
    cases pre with
    | nil => simp [hprev, cellBefore]
    | cons x pre =>
      obtain ⟨z, hz, hcz⟩ := cellBefore_cons .head x pre
      exact ⟨by simp [hprev, hcz], fun _ => ⟨z, hz, hprev.trans hcz⟩⟩
  have hdestroy : ctcpDestroy r a = some (unlinked r a n) := by
    refine ctcpDestroy_eq hn (fun b hb => ⟨?_, hlive b ?_⟩) ?_
    · rw [hnext] at hb
      exact fun e => hapost (e ▸ List.mem_of_mem_head? hb)
    · rw [hnext] at hb; simp [List.mem_of_mem_head? hb]
    · by_cases hpre : pre = []
      · exact .inl (hcell.1.mpr hpre)
      · obtain ⟨z, hz, hzc⟩ := hcell.2 hpre
        refine .inr ⟨z, hzc, fun e => hapre (e ▸ hz), fun hzn => ?_, hlive z (by simp [hz])⟩
        rw [hnext] at hzn
        exact (List.nodup_append.mp hnd).2.2 hz (List.mem_cons_of_mem _
          (List.mem_of_mem_head? hzn))
  refine ⟨_, hdestroy, ⟨?_, ?_, fun y => ?_⟩⟩
  · rw [herase]
    have := h.chain.unlink hn hnd (fun y _ => nofun)
    by_cases hpre : pre = []
    · simpa [unlinked, hcell.1.mpr hpre, hpre] using this
    · simpa [unlinked, mt hcell.1.mp hpre, hpre] using this
  · exact hnd.erase a
  · by_cases hy : y = a
    · subst hy; simp [unlinked, hnd.not_mem_erase]
    · rw [List.mem_erase_of_ne hy, ← h.live y]
      simp [unlinked, hy]

/-! ## §5 Runs -/

/-- Registries reached from the empty one by `ctcp_init` at addresses `calloc` may return (no
node there) and `ctcp_destroy` on live engines, with the live engines, most recently created
first. -/
inductive RegistryRun : Registry → List Nat → Prop
  | empty : RegistryRun Registry.empty []
  | init {r r' : Registry} {xs : List Nat} (a : Nat) : RegistryRun r xs → r.heap a = none →
      registerState r a = some r' → RegistryRun r' (a :: xs)
  | destroy {r r' : Registry} {xs : List Nat} (a : Nat) : RegistryRun r xs → a ∈ xs →
      ctcpDestroy r a = some r' → RegistryRun r' (xs.erase a)

theorem RegistryRun.regInv {r : Registry} {xs : List Nat} (h : RegistryRun r xs) : RegInv r xs := by
  induction h with
  | empty => exact regInv_empty
  | init a _ ha hr ih =>
    obtain ⟨r', hr', hinv⟩ := ih.init ha
    rw [hr] at hr'; cases hr'; exact hinv
  | destroy a _ ha hr ih =>
    obtain ⟨r', hr', hinv⟩ := ih.destroy ha
    rw [hr] at hr'; cases hr'; exact hinv

/-- **The registry links exactly the live engines.** After any sequence of `ctcp_init` and
`ctcp_destroy` calls on live engines, walking `next` from `state_list` visits the live engines,
most recently created first, each once, and reaches `NULL`; the allocated nodes are exactly
these; every live engine's `prev` cell points at it; and every further `ctcp_init` at a fresh
address or `ctcp_destroy` of a live engine is defined. -/
theorem registry_links_live {r : Registry} {xs : List Nat} (h : RegistryRun r xs) :
    r.walk xs.length r.state_list = some xs ∧ xs.Nodup ∧ (∀ a, r.heap a ≠ none ↔ a ∈ xs) ∧
      (∀ a ∈ xs, ∃ n, r.heap a = some n ∧ r.readCell n.prev = some (some a)) ∧
      (∀ a, r.heap a = none → ∃ r', registerState r a = some r') ∧
      (∀ a ∈ xs, ∃ r', ctcpDestroy r a = some r') :=
  let hi := h.regInv
  ⟨hi.chain.walk, hi.nodup, hi.live, hi.chain.prev_cell rfl,
    fun _ ha => (hi.init ha).imp fun _ h => h.1, fun _ ha => (hi.destroy ha).imp fun _ h => h.1⟩

/-- Create engines at `5` and `7`, destroy the one at `5`: the registry links `7` alone. -/
theorem registry_links_live_two : ∃ r, RegistryRun r [7] ∧
    r.walk [7].length r.state_list = some [7] ∧ [7].Nodup ∧ (∀ a, r.heap a ≠ none ↔ a ∈ [7]) ∧
      (∀ a ∈ [7], ∃ n, r.heap a = some n ∧ r.readCell n.prev = some (some a)) ∧
      (∀ a, r.heap a = none → ∃ r', registerState r a = some r') ∧
      (∀ a ∈ [7], ∃ r', ctcpDestroy r a = some r') := by
  have h : RegistryRun _ [7] :=
    .destroy 5 (.init 7 (.init 5 .empty rfl rfl) rfl rfl) (by decide) rfl
  exact ⟨_, h, registry_links_live h⟩

end Ctcp
