import ChipEight.Yaml.Reader

/-!
# Whole trees

A tree that was read to its end misses no part: where the tokens break a rule of the grammar, the
tree is cut and nothing after it is read. So the tree of a document that ends properly is whole
(`Document.isWhole_root`).
-/

set_option autoImplicit false

namespace ChipEight.Yaml

namespace Node

/-- If the tokens after it are known, then what was read is whole. -/
def WholeIfRead {α : Type} (whole : α → Bool) (r : Read α) : Prop :=
  ∀ rest, r.2 = some rest → whole r.1 = true

section

variable {α β : Type} {whole : α → Bool} {a : α} {r : Read α}

theorem wholeIfRead_none : WholeIfRead whole (a, none) := by
  rintro _ ⟨⟩

theorem wholeIfRead_some {ts : List Token} (h : whole a = true) :
    WholeIfRead whole (a, some ts) := fun _ _ => h

theorem WholeIfRead.of_eq {ts : List Token} (h : WholeIfRead whole r) (hr : r = (a, some ts)) :
    whole a = true := by
  subst hr
  exact h ts rfl

theorem WholeIfRead.map {whole' : β → Bool} {f : α → β} (h : WholeIfRead whole r)
    (hf : ∀ a, whole a = true → whole' (f a) = true) : WholeIfRead whole' (r.map f id) :=
  fun rest hrest => hf _ (h rest hrest)

end

theorem WholeIfRead.cons {n : Node} {r : Read (List Node)} (hn : n.isWhole = true)
    (h : WholeIfRead allWhole r) : WholeIfRead allWhole (Node.cons n r) := by
  intro rest hrest
  rw [Node.cons, allWhole, hn, h rest hrest]
  rfl

theorem WholeIfRead.cons_entry {k v : Node} {r : Read (List (Node × Node))}
    (hk : k.isWhole = true) (hv : v.isWhole = true) (h : WholeIfRead entriesWhole r) :
    WholeIfRead entriesWhole (Node.cons (k, v) r) := by
  intro rest hrest
  rw [Node.cons, entriesWhole, hk, hv, h rest hrest]
  rfl

/-- What each reader gives with a certain fuel is whole if it is read. -/
structure ReadersWhole (fuel : Nat) : Prop where
  node : ∀ block indentless ts, WholeIfRead isWhole (readNode block indentless fuel ts)
  optional : ∀ block indentless ends ts,
    WholeIfRead isWhole (readOptional block indentless ends fuel ts)
  blockItems : ∀ ts, WholeIfRead allWhole (readBlockItems fuel ts)
  indentlessItems : ∀ ts, WholeIfRead allWhole (readIndentlessItems fuel ts)
  blockValue : ∀ ts, WholeIfRead isWhole (readBlockValue fuel ts)
  blockEntries : ∀ ts, WholeIfRead entriesWhole (readBlockEntries fuel ts)
  flowItems : ∀ first ts, WholeIfRead allWhole (readFlowItems first fuel ts)
  pair : ∀ ts, WholeIfRead entriesWhole (readPair fuel ts)
  flowValue : ∀ ends ts, WholeIfRead isWhole (readFlowValue ends fuel ts)
  flowEntries : ∀ first ts, WholeIfRead entriesWhole (readFlowEntries first fuel ts)

namespace ReadersWhole

variable {fuel : Nat} (ih : ReadersWhole fuel)
include ih

theorem readNode_succ (block indentless : Bool) (ts : List Token) :
    WholeIfRead isWhole (readNode block indentless (fuel + 1) ts) := by
  unfold readNode
  split
  · exact wholeIfRead_some rfl
  · exact (ih.flowItems true _).map fun _ h => h
  · exact (ih.flowEntries true _).map fun _ h => h
  · split
    · exact (ih.blockItems _).map fun _ h => h
    · exact wholeIfRead_none
  · split
    · exact (ih.blockEntries _).map fun _ h => h
    · exact wholeIfRead_none
  · split
    · exact (ih.indentlessItems _).map fun _ h => h
    · exact wholeIfRead_none
  · exact wholeIfRead_none

theorem readOptional_succ (block indentless : Bool) (ends ts : List Token) :
    WholeIfRead isWhole (readOptional block indentless ends (fuel + 1) ts) := by
  unfold readOptional
  split
  · split
    · exact wholeIfRead_some rfl
    · exact ih.node _ _ _
  · exact wholeIfRead_none

theorem readBlockItems_succ (ts : List Token) :
    WholeIfRead allWhole (readBlockItems (fuel + 1) ts) := by
  unfold readBlockItems
  split
  · split
    · next hitem => exact .cons ((ih.optional _ _ _ _).of_eq hitem) (ih.blockItems _)
    · exact wholeIfRead_none
  · exact wholeIfRead_some rfl
  · exact wholeIfRead_none

theorem readIndentlessItems_succ (ts : List Token) :
    WholeIfRead allWhole (readIndentlessItems (fuel + 1) ts) := by
  unfold readIndentlessItems
  split
  · split
    · next hitem => exact .cons ((ih.optional _ _ _ _).of_eq hitem) (ih.indentlessItems _)
    · exact wholeIfRead_none
  · exact wholeIfRead_none
  · exact wholeIfRead_none
  · exact wholeIfRead_some rfl

theorem readBlockValue_succ (ts : List Token) :
    WholeIfRead isWhole (readBlockValue (fuel + 1) ts) := by
  unfold readBlockValue
  split
  · exact ih.optional _ _ _ _
  · exact wholeIfRead_none
  · exact wholeIfRead_none
  · exact wholeIfRead_some rfl

theorem readBlockEntries_succ (ts : List Token) :
    WholeIfRead entriesWhole (readBlockEntries (fuel + 1) ts) := by
  unfold readBlockEntries
  split
  · split
    · exact wholeIfRead_none
    · next hkey =>
      split
      · exact wholeIfRead_none
      · next hvalue =>
        exact .cons_entry ((ih.optional _ _ _ _).of_eq hkey) ((ih.blockValue _).of_eq hvalue)
          (ih.blockEntries _)
  · exact wholeIfRead_some rfl
  · exact wholeIfRead_none

theorem readFlowItems_succ (first : Bool) (ts : List Token) :
    WholeIfRead allWhole (readFlowItems first (fuel + 1) ts) := by
  unfold readFlowItems
  split
  · exact wholeIfRead_some rfl
  · dsimp only
    split
    · exact wholeIfRead_none
    · exact wholeIfRead_some rfl
    · split
      · exact wholeIfRead_none
      · next hitem =>
        refine .cons (WholeIfRead.of_eq ?_ hitem) (ih.flowItems _ _)
        split
        · exact (ih.pair _).map fun _ h => h
        · exact ih.node _ _ _

theorem readPair_succ (ts : List Token) : WholeIfRead entriesWhole (readPair (fuel + 1) ts) := by
  unfold readPair
  dsimp only
  split
  · exact wholeIfRead_none
  · next k _ hkey =>
    have hk : k.isWhole = true := by
      refine WholeIfRead.of_eq ?_ hkey
      split
      · exact wholeIfRead_none
      · exact wholeIfRead_none
      · exact wholeIfRead_some rfl
      · exact wholeIfRead_some rfl
      · exact wholeIfRead_some rfl
      · exact ih.node _ _ _
    split
    · exact wholeIfRead_none
    · exact wholeIfRead_none
    · exact wholeIfRead_none
    · next hvalue =>
      refine wholeIfRead_some ?_
      rw [entriesWhole, hk, (ih.flowValue _ _).of_eq hvalue]
      rfl

theorem readFlowValue_succ (ends ts : List Token) :
    WholeIfRead isWhole (readFlowValue ends (fuel + 1) ts) := by
  unfold readFlowValue
  split
  · exact ih.optional _ _ _ _
  · exact wholeIfRead_none
  · exact wholeIfRead_none
  · exact wholeIfRead_some rfl

theorem readFlowEntries_succ (first : Bool) (ts : List Token) :
    WholeIfRead entriesWhole (readFlowEntries first (fuel + 1) ts) := by
  unfold readFlowEntries
  split
  · exact wholeIfRead_some rfl
  · dsimp only
    split
    · exact wholeIfRead_none
    · exact wholeIfRead_some rfl
    · split
      · exact wholeIfRead_none
      · next hkey =>
        split
        · exact wholeIfRead_none
        · next hvalue =>
          exact .cons_entry ((ih.optional _ _ _ _).of_eq hkey) ((ih.flowValue _ _).of_eq hvalue)
            (ih.flowEntries _ _)
    · split
      · exact wholeIfRead_none
      · exact wholeIfRead_none
      · exact wholeIfRead_none
      · next hkey => exact .cons_entry ((ih.node _ _ _).of_eq hkey) rfl (ih.flowEntries _ _)

end ReadersWhole

/-- By induction on the fuel, with all readers at once. -/
theorem readersWhole (fuel : Nat) : ReadersWhole fuel := by
  induction fuel with
  | zero => constructor <;> intros <;> exact wholeIfRead_none
  | succ fuel ih =>
    exact {
      node := ih.readNode_succ
      optional := ih.readOptional_succ
      blockItems := ih.readBlockItems_succ
      indentlessItems := ih.readIndentlessItems_succ
      blockValue := ih.readBlockValue_succ
      blockEntries := ih.readBlockEntries_succ
      flowItems := ih.readFlowItems_succ
      pair := ih.readPair_succ
      flowValue := ih.readFlowValue_succ
      flowEntries := ih.readFlowEntries_succ }

end Node

namespace Document

theorem isWhole_ofRead {r : Node.Read Node} (h : Node.WholeIfRead Node.isWhole r)
    (hended : (ofRead r).ended = true) {n : Node} (hroot : (ofRead r).root = some n) :
    n.isWhole = true := by
  obtain ⟨root, rest⟩ := r
  cases rest with
  | none => cases hended
  | some ts =>
    obtain rfl := Option.some.inj hroot
    exact h ts rfl

/-- The tree of a document that ends properly misses no part. -/
theorem isWhole_root {ts : List Token} (hended : (ofTokens ts).ended = true) {n : Node}
    (hroot : (ofTokens ts).root = some n) : n.isWhole = true := by
  revert hended hroot
  unfold ofTokens
  split
  · exact fun _ hroot => nomatch hroot
  · exact fun hended hroot => isWhole_ofRead ((Node.readersWhole _).optional _ _ _ _) hended hroot
  · exact fun hended hroot => isWhole_ofRead ((Node.readersWhole _).node _ _ _) hended hroot

end Document

end ChipEight.Yaml
