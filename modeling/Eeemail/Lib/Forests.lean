import Mathlib

/-! # Forests from parents

Points in a list have parents that come earlier in rank.  The forest in which
the children of a point are the points it is the parent of, in the order of the
list, holds every point once; in pre-order siblings keep their order, and every
point comes after its parent, one level deeper. -/

set_option autoImplicit false

namespace Eeemail.Lib.Forests

inductive Rose (α : Type) where
  | node (value : α) (children : List (Rose α))

section Trees

variable {α : Type}

def Rose.root : Rose α → α
  | .node value _ => value

theorem Rose.ind {motive : Rose α → Prop}
    (node : ∀ value children, (∀ child ∈ children, motive child) → motive (.node value children)) :
    ∀ tree, motive tree
  | .node value children => node value children fun child _ => Rose.ind node child

mutual

def Rose.values : Rose α → List α
  | .node value children => value :: valuesAll children

def valuesAll : List (Rose α) → List α
  | [] => []
  | tree :: rest => tree.values ++ valuesAll rest

end

theorem valuesAll_eq (trees : List (Rose α)) : valuesAll trees = trees.flatMap Rose.values := by
  induction trees with
  | nil => rfl
  | cons tree rest ih => rw [valuesAll, ih, List.flatMap_cons]

theorem values_node (value : α) (children : List (Rose α)) :
    (Rose.node value children).values = value :: children.flatMap Rose.values := by
  rw [Rose.values, valuesAll_eq]

theorem root_mem_values (tree : Rose α) : tree.root ∈ tree.values := by
  obtain ⟨value, children⟩ := tree
  rw [values_node]
  exact List.mem_cons_self

/-- A point of a tree in pre-order, with its parent and its depth. -/
structure Item (α : Type) where
  value : α
  parent : Option α
  depth : Nat

mutual

/-- The points of a tree with their parents and depths; `next` is the depth below. -/
def Rose.preorder (next : Nat → Nat) (parent : Option α) (depth : Nat) : Rose α → List (Item α)
  | .node value children =>
    ⟨value, parent, depth⟩ :: preorderAll next (some value) (next depth) children

def preorderAll (next : Nat → Nat) (parent : Option α) (depth : Nat) :
    List (Rose α) → List (Item α)
  | [] => []
  | tree :: rest => tree.preorder next parent depth ++ preorderAll next parent depth rest

end

variable {next : Nat → Nat}

theorem preorderAll_eq (parent : Option α) (depth : Nat) (trees : List (Rose α)) :
    preorderAll next parent depth trees = trees.flatMap (Rose.preorder next parent depth) := by
  induction trees with
  | nil => rfl
  | cons tree rest ih => rw [preorderAll, ih, List.flatMap_cons]

theorem preorder_node (parent : Option α) (depth : Nat) (value : α) (children : List (Rose α)) :
    (Rose.node value children).preorder next parent depth =
      ⟨value, parent, depth⟩ :: children.flatMap
        (Rose.preorder next (some value) (next depth)) := by
  rw [Rose.preorder, preorderAll_eq]

theorem map_flatMap_preorder {trees : List (Rose α)} (each : ∀ tree ∈ trees, ∀ parent depth,
      (tree.preorder next parent depth).map Item.value = tree.values)
    (parent : Option α) (depth : Nat) :
    (trees.flatMap (Rose.preorder next parent depth)).map Item.value =
      trees.flatMap Rose.values := by
  rw [List.map_flatMap]
  exact List.flatMap_congr fun tree member => each tree member parent depth

theorem map_value_preorder (tree : Rose α) : ∀ parent depth,
    (tree.preorder next parent depth).map Item.value = tree.values := by
  induction tree using Rose.ind with
  | node value children ih =>
    intro parent depth
    rw [preorder_node, values_node, List.map_cons, map_flatMap_preorder ih]

end Trees

/-! ## Points above points -/

section Ranked

variable {α : Type}

/-- The parents of points that are listed are listed, and of lower rank. -/
structure Ranked (points : List α) (parent : α → Option α) (rank : α → Nat) : Prop where
  nodup : points.Nodup
  mem : ∀ x ∈ points, ∀ p, parent x = some p → p ∈ points
  lt : ∀ x ∈ points, ∀ p, parent x = some p → rank p < rank x

def Ascends (parent : α → Option α) : α → α → Prop :=
  Relation.ReflTransGen fun x p => parent x = some p

variable {points : List α} {parent : α → Option α} {rank : α → Nat} {a b c : α}

section

variable (ranked : Ranked points parent rank)

include ranked

theorem Ranked.mem_of_ascends (isPoint : a ∈ points)
    (ascends : Ascends parent a b) : b ∈ points := by
  induction ascends with
  | refl => exact isPoint
  | tail _ last ih => exact ranked.mem _ ih _ last

theorem Ranked.le_of_ascends (isPoint : a ∈ points)
    (ascends : Ascends parent a b) : rank b ≤ rank a := by
  induction ascends with
  | refl => exact Nat.le_refl _
  | tail before last ih =>
    have lower := ranked.lt _ (ranked.mem_of_ascends isPoint before) _ last
    omega

theorem Ranked.eq_of_siblings (isPoint : a ∈ points)
    (isOther : b ∈ points) (siblings : parent a = parent b) (ascends : Ascends parent a b) :
    a = b := by
  rcases Relation.ReflTransGen.cases_head ascends with same | ⟨p, isParent, above⟩
  · exact same
  · have low := ranked.le_of_ascends (ranked.mem a isPoint p isParent) above
    have high := ranked.lt b isOther p (siblings ▸ isParent)
    omega

theorem Ranked.eq_of_ascends (isFirst : a ∈ points)
    (isSecond : b ∈ points) (siblings : parent a = parent b) (toFirst : Ascends parent c a)
    (toSecond : Ascends parent c b) : a = b := by
  have unique : Relator.RightUnique fun x p : α => parent x = some p :=
    fun _ _ _ first second => Option.some.inj (first.symm.trans second)
  rcases Relation.ReflTransGen.total_of_right_unique unique toFirst toSecond with up | up
  · exact ranked.eq_of_siblings isFirst isSecond siblings up
  · exact (ranked.eq_of_siblings isSecond isFirst siblings.symm up).symm

end

end Ranked

/-! ## The forest -/

section Grown

variable {α : Type} [DecidableEq α] {points : List α} {parent : α → Option α} {rank : α → Nat}

def kids (points : List α) (parent : α → Option α) (above : Option α) : List α :=
  points.filter fun x => parent x = above

theorem mem_kids {x : α} {above : Option α} :
    x ∈ kids points parent above ↔ x ∈ points ∧ parent x = above := by
  simp [kids]

/-- Below every point are the points it is the parent of. -/
inductive Grown (points : List α) (parent : α → Option α) : Rose α → Prop where
  | node (value : α) (children : List (Rose α))
      (roots : children.map Rose.root = kids points parent (some value))
      (below : ∀ child ∈ children, Grown points parent child) :
      Grown points parent (.node value children)

/-- The trees of the points with one parent. -/
structure Forest (points : List α) (parent : α → Option α) (above : Option α)
    (trees : List (Rose α)) : Prop where
  roots : trees.map Rose.root = kids points parent above
  grown : ∀ tree ∈ trees, Grown points parent tree

variable {above : Option α} {trees : List (Rose α)} {tree : Rose α} {x y : α}

theorem Forest.mem_root (forest : Forest points parent above trees) (member : tree ∈ trees) :
    tree.root ∈ points ∧ parent tree.root = above := by
  have isKid : tree.root ∈ kids points parent above :=
    forest.roots ▸ List.mem_map_of_mem member
  exact mem_kids.mp isKid

theorem Grown.forest {value : α} {children : List (Rose α)}
    (grown : Grown points parent (.node value children)) :
    Forest points parent (some value) children := by
  cases grown with
  | node _ _ roots below => exact ⟨roots, below⟩

theorem Grown.ascends (grown : Grown points parent tree) (member : x ∈ tree.values) :
    Ascends parent x tree.root := by
  induction tree using Rose.ind with
  | node value children ih =>
    rw [values_node, List.mem_cons, List.mem_flatMap] at member
    rcases member with rfl | ⟨child, isChild, below⟩
    · exact .refl
    · have forest := grown.forest
      exact (ih child isChild (forest.grown child isChild) below).tail
        (forest.mem_root isChild).2

theorem Grown.subset (grown : Grown points parent tree) (isPoint : tree.root ∈ points)
    (member : x ∈ tree.values) : x ∈ points := by
  induction tree using Rose.ind with
  | node value children ih =>
    rw [values_node, List.mem_cons, List.mem_flatMap] at member
    rcases member with rfl | ⟨child, isChild, below⟩
    · exact isPoint
    · have forest := grown.forest
      exact ih child isChild (forest.grown child isChild) (forest.mem_root isChild).1 below

theorem Grown.mem_of_parent (grown : Grown points parent tree) (member : x ∈ tree.values)
    (isPoint : y ∈ points) (isParent : parent y = some x) : y ∈ tree.values := by
  induction tree using Rose.ind with
  | node value children ih =>
    have forest := grown.forest
    rw [values_node, List.mem_cons, List.mem_flatMap] at member ⊢
    rcases member with rfl | ⟨child, isChild, below⟩
    · have isKid : y ∈ children.map Rose.root :=
        forest.roots ▸ mem_kids.mpr ⟨isPoint, isParent⟩
      obtain ⟨child, isChild, rfl⟩ := List.mem_map.mp isKid
      exact Or.inr ⟨child, isChild, root_mem_values child⟩
    · exact Or.inr ⟨child, isChild, ih child isChild (forest.grown child isChild) below⟩

theorem Forest.le_rank (forest : Forest points parent above trees)
    (ranked : Ranked points parent rank) (member : tree ∈ trees) (isValue : x ∈ tree.values) :
    rank tree.root ≤ rank x := by
  have isPoint := (forest.grown tree member).subset (forest.mem_root member).1 isValue
  exact ranked.le_of_ascends isPoint ((forest.grown tree member).ascends isValue)

theorem Forest.not_mem_values (forest : Forest points parent (some x) trees)
    (ranked : Ranked points parent rank) (member : tree ∈ trees) : x ∉ tree.values := by
  intro isValue
  have low := forest.le_rank ranked member isValue
  obtain ⟨isPoint, isParent⟩ := forest.mem_root member
  have high := ranked.lt _ isPoint x isParent
  omega

theorem Forest.eq_of_mem (forest : Forest points parent above trees)
    (ranked : Ranked points parent rank) {first second : Rose α} (isFirst : first ∈ trees)
    (isSecond : second ∈ trees) (inFirst : x ∈ first.values) (inSecond : x ∈ second.values) :
    first.root = second.root := by
  obtain ⟨firstPoint, firstParent⟩ := forest.mem_root isFirst
  obtain ⟨secondPoint, secondParent⟩ := forest.mem_root isSecond
  exact ranked.eq_of_ascends firstPoint secondPoint (firstParent.trans secondParent.symm)
    ((forest.grown first isFirst).ascends inFirst) ((forest.grown second isSecond).ascends inSecond)

theorem Forest.pairwise_disjoint (forest : Forest points parent above trees)
    (ranked : Ranked points parent rank) :
    trees.Pairwise fun first second => List.Disjoint first.values second.values := by
  have distinct : (trees.map Rose.root).Nodup := forest.roots ▸ ranked.nodup.filter _
  have apart : trees.Pairwise fun first second => first.root ≠ second.root :=
    List.pairwise_map.mp distinct
  refine apart.imp_of_mem ?_
  intro first second isFirst isSecond different x inFirst inSecond
  exact different (forest.eq_of_mem ranked isFirst isSecond inFirst inSecond)

theorem Grown.nodup_values (grown : Grown points parent tree) (ranked : Ranked points parent rank) :
    tree.values.Nodup := by
  induction tree using Rose.ind with
  | node value children ih =>
    have forest := grown.forest
    rw [values_node, List.nodup_cons, List.mem_flatMap]
    refine ⟨?_, List.nodup_flatMap.mpr
      ⟨fun child isChild => ih child isChild (forest.grown child isChild),
        forest.pairwise_disjoint ranked⟩⟩
    rintro ⟨child, isChild, isValue⟩
    exact forest.not_mem_values ranked isChild isValue

theorem Forest.nodup (forest : Forest points parent above trees)
    (ranked : Ranked points parent rank) : (trees.flatMap Rose.values).Nodup :=
  List.nodup_flatMap.mpr ⟨fun tree member => (forest.grown tree member).nodup_values ranked,
    forest.pairwise_disjoint ranked⟩

theorem Forest.mem_iff (forest : Forest points parent none trees)
    (ranked : Ranked points parent rank) : x ∈ trees.flatMap Rose.values ↔ x ∈ points := by
  rw [List.mem_flatMap]
  constructor
  · rintro ⟨tree, member, isValue⟩
    exact (forest.grown tree member).subset (forest.mem_root member).1 isValue
  · intro isPoint
    induction known : rank x using Nat.strongRecOn generalizing x with
    | _ n ih =>
      cases isParent : parent x with
      | none =>
        have isRoot : x ∈ trees.map Rose.root := forest.roots ▸ mem_kids.mpr ⟨isPoint, isParent⟩
        obtain ⟨tree, member, rfl⟩ := List.mem_map.mp isRoot
        exact ⟨tree, member, root_mem_values tree⟩
      | some p =>
        obtain ⟨tree, member, isValue⟩ := ih (rank p) (known ▸ ranked.lt x isPoint p isParent)
          (ranked.mem x isPoint p isParent) rfl
        exact ⟨tree, member,
          (forest.grown tree member).mem_of_parent isValue isPoint isParent⟩

omit [DecidableEq α] in
theorem flatMap_ite_of_pairwise {β : Type} {p : β → Prop} [DecidablePred p] {places : List β}
    (apart : places.Pairwise fun first second => ¬(p first ∧ p second)) (part : List α) :
    places.flatMap (fun place => if p place then part else []) =
      if ∃ place ∈ places, p place then part else [] := by
  induction places with
  | nil => simp
  | cons place rest ih =>
    obtain ⟨others, apart⟩ := List.pairwise_cons.mp apart
    rw [List.flatMap_cons, ih apart]
    by_cases here : p place
    · have nowhere : ¬∃ other ∈ rest, p other :=
        fun ⟨other, member, there⟩ => others other member ⟨here, there⟩
      simp [here, nowhere]
    · simp [here]

theorem Forest.filter_values_of_each (forest : Forest points parent above trees)
    (ranked : Ranked points parent rank) (wanted : Option α)
    (each : ∀ tree ∈ trees, tree.values.filter (fun x => parent x = wanted) =
      (if above = wanted then [tree.root] else []) ++
        if wanted ∈ tree.values.map some then kids points parent wanted else []) :
    (trees.flatMap Rose.values).filter (fun x => parent x = wanted) =
      if above = wanted ∨ wanted ∈ (trees.flatMap Rose.values).map some then
        kids points parent wanted else [] := by
  rw [List.filter_flatMap, List.flatMap_congr each]
  by_cases isAbove : above = wanted
  · subst isAbove
    have notBelow : ∀ tree ∈ trees, above ∉ tree.values.map some := by
      intro tree member isValue
      obtain ⟨x, inside, rfl⟩ := List.mem_map.mp isValue
      exact forest.not_mem_values ranked member inside
    have onlyRoots : ∀ tree ∈ trees,
        ((if above = above then [tree.root] else []) ++
          if above ∈ tree.values.map some then kids points parent above else []) =
        [tree.root] := by
      intro tree member
      rw [if_pos rfl, if_neg (notBelow tree member), List.append_nil]
    rw [List.flatMap_congr onlyRoots, if_pos (Or.inl rfl), ← forest.roots,
      List.map_eq_flatMap]
  · simp only [isAbove, if_false, List.nil_append, false_or]
    have apart : trees.Pairwise fun first second =>
        ¬(wanted ∈ first.values.map some ∧ wanted ∈ second.values.map some) := by
      refine (forest.pairwise_disjoint ranked).imp ?_
      rintro first second disjoint ⟨inFirst, inSecond⟩
      obtain ⟨x, isFirst, rfl⟩ := List.mem_map.mp inFirst
      obtain ⟨y, isSecond, same⟩ := List.mem_map.mp inSecond
      exact disjoint isFirst (Option.some.inj same ▸ isSecond)
    rw [flatMap_ite_of_pairwise apart]
    have spread : wanted ∈ (trees.flatMap Rose.values).map some ↔
        ∃ tree ∈ trees, wanted ∈ tree.values.map some := by
      rw [List.map_flatMap, List.mem_flatMap]
    simp only [spread]

theorem Grown.filter_values (grown : Grown points parent tree) (ranked : Ranked points parent rank)
    (wanted : Option α) :
    tree.values.filter (fun x => parent x = wanted) =
      (if parent tree.root = wanted then [tree.root] else []) ++
        if wanted ∈ tree.values.map some then kids points parent wanted else [] := by
  induction tree using Rose.ind with
  | node value children ih =>
    have forest := grown.forest
    have below := forest.filter_values_of_each ranked wanted fun child isChild => by
      rw [ih child isChild (forest.grown child isChild), (forest.mem_root isChild).2]
    rw [values_node, List.filter_cons, below]
    simp only [Rose.root, decide_eq_true_eq, List.map_cons, List.mem_cons,
      eq_comm (a := wanted) (b := some value)]
    by_cases isParent : parent value = wanted
    · simp [isParent]
    · simp [isParent]

theorem Forest.filter_values (forest : Forest points parent none trees)
    (ranked : Ranked points parent rank) (wanted : Option α) :
    (trees.flatMap Rose.values).filter (fun x => parent x = wanted) =
      kids points parent wanted := by
  rw [forest.filter_values_of_each ranked wanted fun tree member => by
    rw [(forest.grown tree member).filter_values ranked, (forest.mem_root member).2]]
  split
  · rfl
  · rename_i nowhere
    symm
    rw [List.eq_nil_iff_forall_not_mem]
    intro x isKid
    obtain ⟨isPoint, isParent⟩ := mem_kids.mp isKid
    cases wanted with
    | none => exact nowhere (Or.inl rfl)
    | some p =>
      have inside := (forest.mem_iff ranked).mpr (ranked.mem x isPoint p isParent)
      exact nowhere (Or.inr (List.mem_map_of_mem inside))

/-! ## Parents first -/

/-- The parent came before, one level up. -/
def Hangs (next : Nat → Nat) (before : List (Item α)) (above : Option α) (depth : Nat) : Prop :=
  match above with
  | none => depth = 0
  | some p => ∃ up ∈ before, up.value = p ∧ depth = next up.depth

/-- Every item names its parent and comes after it, one level deeper. -/
def Laid (parent : α → Option α) (next : Nat → Nat) (before : List (Item α)) :
    List (Item α) → Prop
  | [] => True
  | item :: rest =>
    item.parent = parent item.value ∧ Hangs next before item.parent item.depth ∧
      Laid parent next (before ++ [item]) rest

variable {next : Nat → Nat} {before items : List (Item α)} {depth : Nat}

omit [DecidableEq α] in
theorem Hangs.append (hangs : Hangs next before above depth) (more : List (Item α)) :
    Hangs next (before ++ more) above depth := by
  cases above with
  | none => exact hangs
  | some p =>
    obtain ⟨up, member, isUp⟩ := hangs
    exact ⟨up, List.mem_append_left more member, isUp⟩

omit [DecidableEq α] in
theorem Laid.append {first second : List (Item α)} (laid : Laid parent next before first)
    (more : Laid parent next (before ++ first) second) :
    Laid parent next before (first ++ second) := by
  induction first generalizing before with
  | nil => simpa using more
  | cons item rest ih =>
    obtain ⟨named, hangs, laid⟩ := laid
    refine ⟨named, hangs, ih laid ?_⟩
    simpa using more

omit [DecidableEq α] in
theorem laid_flatMap (each : ∀ tree ∈ trees, ∀ before, Hangs next before above depth →
      Laid parent next before (tree.preorder next above depth))
    (hangs : Hangs next before above depth) :
    Laid parent next before (trees.flatMap (Rose.preorder next above depth)) := by
  induction trees generalizing before with
  | nil => trivial
  | cons tree rest ih =>
    rw [List.flatMap_cons]
    refine (each tree List.mem_cons_self before hangs).append ?_
    exact ih (fun other member => each other (List.mem_cons_of_mem tree member))
      (hangs.append _)

theorem Grown.laid (grown : Grown points parent tree) : ∀ above depth before,
    parent tree.root = above → Hangs next before above depth →
      Laid parent next before (tree.preorder next above depth) := by
  induction tree using Rose.ind with
  | node value children ih =>
    intro above depth before isParent hangs
    have forest := grown.forest
    rw [preorder_node]
    refine ⟨isParent.symm, hangs, laid_flatMap ?_ ?_⟩
    · intro child isChild before hangs
      exact ih child isChild (forest.grown child isChild) _ _ before
        (forest.mem_root isChild).2 hangs
    · exact ⟨⟨value, above, depth⟩, List.mem_append_right before List.mem_cons_self, rfl, rfl⟩

theorem Forest.laid (forest : Forest points parent none trees) :
    Laid parent next [] (trees.flatMap (Rose.preorder next none 0)) := by
  refine laid_flatMap ?_ rfl
  intro tree member before hangs
  exact (forest.grown tree member).laid none 0 before (forest.mem_root member).2 hangs

omit [DecidableEq α] in
theorem Laid.hangs (laid : Laid parent next before items) {earlier later : List (Item α)}
    {item : Item α} (split : items = earlier ++ item :: later) :
    item.parent = parent item.value ∧
      Hangs next (before ++ earlier) item.parent item.depth := by
  induction items generalizing before earlier with
  | nil => simp at split
  | cons first rest ih =>
    obtain ⟨named, hangs, laid⟩ := laid
    cases earlier with
    | nil =>
      obtain ⟨rfl, rfl⟩ := List.cons.inj split
      exact ⟨named, by simpa using hangs⟩
    | cons start earlier =>
      obtain ⟨rfl, restSplit⟩ := List.cons.inj split
      simpa using ih laid restSplit

omit [DecidableEq α] in
theorem Laid.depth_le (ranked : Ranked points parent rank) (slow : ∀ d, next d ≤ d + 1)
    (shallow : ∀ up ∈ before, up.depth ≤ rank up.value)
    (arePoints : ∀ item ∈ items, item.value ∈ points) (laid : Laid parent next before items) :
    ∀ item ∈ items, item.depth ≤ rank item.value := by
  induction items generalizing before with
  | nil => simp
  | cons first rest ih =>
    obtain ⟨named, hangs, laid⟩ := laid
    have low : first.depth ≤ rank first.value := by
      cases isParent : first.parent with
      | none =>
        rw [isParent] at hangs
        rw [show first.depth = 0 from hangs]
        exact Nat.zero_le _
      | some p =>
        rw [isParent] at hangs
        obtain ⟨up, member, rfl, deeper⟩ := hangs
        have above := shallow up member
        have lower := ranked.lt first.value (arePoints first List.mem_cons_self) up.value
          (named.symm.trans isParent)
        have step := slow up.depth
        omega
    have shallower : ∀ up ∈ before ++ [first], up.depth ≤ rank up.value := by
      intro up member
      rcases List.mem_append.mp member with old | new
      · exact shallow up old
      · exact List.mem_singleton.mp new ▸ low
    have later := ih shallower
      (fun item member => arePoints item (List.mem_cons_of_mem first member)) laid
    intro item member
    rcases List.mem_cons.mp member with rfl | member
    · exact low
    · exact later item member

end Grown

end Eeemail.Lib.Forests
