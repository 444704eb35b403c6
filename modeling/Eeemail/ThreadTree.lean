import Eeemail.Threading

/-! # The reply tree

The parent of a message is older than it, whatever its headers say, so the
replies of a thread form a forest.  The two loops with explicit stacks,
`buildNode` and `flattenThread`, compute that forest and its pre-order. -/

set_option autoImplicit false

namespace Eeemail.ThreadTree

open Lib.Texts Lib.Tables Lib.Loops Lib.Forests Store Threading

variable {db : Db} {mid : Text} {msgId : MsgId} {row : Message} {fuel : Nat} {item : Item MsgId}

/-! ## The order of the rows -/

def Older (a b : Message) : Prop :=
  a.timestamp < b.timestamp ∨ (a.timestamp = b.timestamp ∧ a.id < b.id)

instance (a b : Message) : Decidable (Older a b) := by
  unfold Older
  infer_instance

theorem older_irrefl (a : Message) : ¬Older a a := by
  rintro (earlier | ⟨_, earlier⟩)
  · exact lt_irrefl _ earlier
  · exact lt_irrefl _ earlier

theorem older_asymm {a b : Message} (older : Older a b) : ¬Older b a := by
  unfold Older at *
  grind

structure Ordered (rows : List Message) : Prop where
  older : rows.Pairwise Older
  ids : (rows.map (·.id)).Nodup

theorem mem_threadRows {threadId : ThreadId} {tables : ThreadTables} {msg : Message} :
    msg ∈ threadRows threadId db tables ↔
      msg ∈ db.msgs ∧ msg.isLive = true ∧
        ∃ row ∈ tables.msgThreads, row.msgId = msg.id ∧ row.threadId = threadId := by
  simp [threadRows, oldestFirst, List.mem_insertionSort]

theorem pairwise_oldestFirst (msgs : List Message) : (oldestFirst msgs).Pairwise fun a b =>
      a.timestamp < b.timestamp ∨ (a.timestamp = b.timestamp ∧ a.id ≤ b.id) := by
  have total : Std.Total fun a b : Message =>
      a.timestamp < b.timestamp ∨ (a.timestamp = b.timestamp ∧ a.id ≤ b.id) :=
    ⟨fun a b => by grind⟩
  have transitive : IsTrans Message fun a b =>
      a.timestamp < b.timestamp ∨ (a.timestamp = b.timestamp ∧ a.id ≤ b.id) :=
    ⟨fun a b c first second => by grind⟩
  exact List.pairwise_insertionSort _ msgs

theorem ordered_threadRows (threadId : ThreadId) (tables : ThreadTables)
    (ids : (db.msgs.map (·.id)).Nodup) : Ordered (threadRows threadId db tables) := by
  have distinct : ((threadRows threadId db tables).map (·.id)).Nodup := by
    refine (((List.perm_insertionSort _ _).map _).nodup_iff).mpr ?_
    exact ids.sublist (List.filter_sublist.map _)
  refine ⟨?_, distinct⟩
  have apart : (threadRows threadId db tables).Pairwise fun a b => a.id ≠ b.id :=
    List.pairwise_map.mp distinct
  refine ((pairwise_oldestFirst _).and apart).imp ?_
  rintro a b ⟨ordered, different⟩
  unfold Older
  grind

section Rows

variable {rows : List Message}

theorem getElem_orderOf (ordered : Ordered rows) {msg : Message} (member : msg ∈ rows) :
    ∃ isLt : orderOf rows msg.id < rows.length, rows[orderOf rows msg.id] = msg := by
  have isLt : orderOf rows msg.id < rows.length :=
    List.findIdx_lt_length_of_exists ⟨msg, member, beq_self_eq_true _⟩
  refine ⟨isLt, List.inj_on_of_nodup_map ordered.ids (List.getElem_mem isLt) member ?_⟩
  have found : (rows[orderOf rows msg.id].id == msg.id) = true :=
    List.findIdx_getElem (p := fun row : Message => row.id == msg.id)
  exact eq_of_beq found

theorem orderOf_lt_iff (ordered : Ordered rows) {a b : Message} (isFirst : a ∈ rows)
    (isSecond : b ∈ rows) : orderOf rows a.id < orderOf rows b.id ↔ Older a b := by
  obtain ⟨firstLt, first⟩ := getElem_orderOf ordered isFirst
  obtain ⟨secondLt, second⟩ := getElem_orderOf ordered isSecond
  have pairs := List.pairwise_iff_getElem.mp ordered.older
  constructor
  · intro before
    simpa only [first, second] using pairs _ _ firstLt secondLt before
  · intro older
    rcases lt_trichotomy (orderOf rows a.id) (orderOf rows b.id) with before | same | after
    · exact before
    · have equal : a = b := by
        rw [← first, ← second]
        simp only [same]
      exact absurd (equal ▸ older) (older_irrefl b)
    · have opposite : Older b a := by
        simpa only [first, second] using pairs _ _ secondLt firstLt after
      exact absurd opposite (older_asymm older)

/-! ## Parents -/

/-- A Message-ID stands for the oldest message of the thread that has it. -/
def Names (rows : List Message) (mid : Text) (msg : Message) : Prop :=
  mid ≠ [] ∧ msg ∈ rows ∧ msg.rfc724Mid = mid ∧
    ∀ other ∈ rows, other.rfc724Mid = mid → other = msg ∨ Older msg other

theorem byMid_eq_some (ordered : Ordered rows) :
    byMid rows mid = some msgId ↔ ∃ msg, Names rows mid msg ∧ msg.id = msgId := by
  simp only [byMid, Option.map_eq_some_iff, List.find?_eq_some_iff_append]
  constructor
  · rintro ⟨msg, ⟨matched, before, after, split, unmatched⟩, rfl⟩
    have older := ordered.older
    subst split
    simp only [Bool.and_eq_true, Bool.not_eq_true', List.isEmpty_eq_false_iff, beq_iff_eq]
      at matched
    obtain ⟨nonempty, rfl⟩ := matched
    refine ⟨msg, ⟨nonempty, by simp, rfl, ?_⟩, rfl⟩
    intro other member same
    rcases List.mem_append.mp member with early | late
    · exact absurd (unmatched other early) (by simp [same, nonempty])
    · rcases List.mem_cons.mp late with rfl | late
      · exact Or.inl rfl
      · exact Or.inr (List.rel_of_pairwise_cons (List.pairwise_append.mp older).2.1 late)
  · rintro ⟨msg, ⟨nonempty, member, rfl, oldest⟩, rfl⟩
    obtain ⟨before, after, split⟩ := List.append_of_mem member
    refine ⟨msg, ⟨by simp [nonempty], before, after, split, ?_⟩, rfl⟩
    intro other early
    by_cases same : other.rfc724Mid = msg.rfc724Mid
    · have older : Older other msg := by
        have pairs := ordered.older
        rw [split] at pairs
        exact (List.pairwise_append.mp pairs).2.2 other early msg List.mem_cons_self
      rcases oldest other (split ▸ List.mem_append_left _ early) same with rfl | younger
      · exact absurd older (older_irrefl other)
      · exact absurd younger (older_asymm older)
    · simp [same]

/-- The reference leads from a message to a strictly older one of the thread. -/
def Resolves (rows : List Message) (msg : Message) (mid : Text) (parent : MsgId) : Prop :=
  ∃ up, Names rows mid up ∧ Older up msg ∧ up.id = parent

def resolve (rows : List Message) (row : Message) (candidate : Text) : Option MsgId :=
  match byMid rows candidate with
  | none => none
  | some candidateId =>
    if candidateId = row.id then none
    else if orderOf rows row.id ≤ orderOf rows candidateId then none
    else some candidateId

theorem resolve_eq_some (ordered : Ordered rows) (isRow : row ∈ rows) {target : MsgId} :
    resolve rows row mid = some target ↔ Resolves rows row mid target := by
  unfold Resolves
  cases found : byMid rows mid with
  | none =>
    have unnamed : ¬∃ up, Names rows mid up ∧ Older up row ∧ up.id = target := by
      rintro ⟨up, names, _, _⟩
      have some := (byMid_eq_some ordered).mpr ⟨up, names, rfl⟩
      rw [found] at some
      exact Option.some_ne_none _ some.symm
    simp [resolve, found, unnamed]
  | some candidateId =>
    obtain ⟨up, names, rfl⟩ := (byMid_eq_some ordered).mp found
    have only : ∀ other, Names rows mid other → other.id = up.id := by
      intro other also
      have same := (byMid_eq_some ordered).mpr ⟨other, also, rfl⟩
      exact Option.some.inj (same.symm.trans found)
    have order := orderOf_lt_iff ordered names.2.1 isRow
    have exactly : (∃ other, Names rows mid other ∧ Older other row ∧ other.id = target) ↔
        Older up row ∧ up.id = target := by
      constructor
      · rintro ⟨other, also, older, rfl⟩
        have same : other = up :=
          List.inj_on_of_nodup_map ordered.ids also.2.1 names.2.1 (only other also)
        exact same ▸ ⟨older, rfl⟩
      · rintro ⟨older, rfl⟩
        exact ⟨up, names, older, rfl⟩
    rw [exactly, ← order]
    simp only [resolve, found]
    split
    · rename_i same
      simp [same]
    · split
      · simp only [reduceCtorEq, false_iff, not_and]
        omega
      · rename_i _ younger
        simp [not_le.mp younger]

theorem resolve_eq_none (ordered : Ordered rows) (isRow : row ∈ rows) :
    resolve rows row mid = none ↔ ∀ target, ¬Resolves rows row mid target := by
  rw [Option.eq_none_iff_forall_ne_some]
  exact forall_congr' fun target => not_congr (resolve_eq_some ordered isRow)

variable [Unicode]

def listed (msg : Message) : List Text :=
  parseMessageIds msg.mimeReferences ++ parseMessageIds msg.mimeInReplyTo

/-- The parent is what the last-listed reference that resolves leads to. -/
def IsParent (rows : List Message) (msg : Message) : Option MsgId → Prop
  | none => ∀ mid ∈ listed msg, ∀ target, ¬Resolves rows msg mid target
  | some parent =>
    ∃ before mid after, listed msg = before ++ mid :: after ∧ Resolves rows msg mid parent ∧
      ∀ later ∈ after, ∀ target, ¬Resolves rows msg later target

theorem parentOf_eq (row : Message) :
    parentOf rows row = (listed row).reverse.findSome? (resolve rows row) := rfl

theorem isParent_parentOf (ordered : Ordered rows) (isRow : row ∈ rows) :
    IsParent rows row (parentOf rows row) := by
  rw [parentOf_eq]
  cases found : (listed row).reverse.findSome? (resolve rows row) with
  | none =>
    intro mid member
    have unresolved := List.findSome?_eq_none_iff.mp found mid (List.mem_reverse.mpr member)
    exact (resolve_eq_none ordered isRow).mp unresolved
  | some parent =>
    obtain ⟨after, mid, before, split, resolved, unresolved⟩ :=
      List.findSome?_eq_some_iff.mp found
    refine ⟨before.reverse, mid, after.reverse, ?_, (resolve_eq_some ordered isRow).mp resolved, ?_⟩
    · simpa using congrArg List.reverse split
    · intro later member
      exact (resolve_eq_none ordered isRow).mp (unresolved later (List.mem_reverse.mp member))

theorem older_of_parentOf (ordered : Ordered rows) (isRow : row ∈ rows) {parent : MsgId}
    (isParent : parentOf rows row = some parent) : ∃ up ∈ rows, up.id = parent ∧ Older up row := by
  have spec := isParent_parentOf ordered isRow
  rw [isParent] at spec
  obtain ⟨_, _, _, _, ⟨up, names, older, same⟩, _⟩ := spec
  exact ⟨up, names.2.1, same, older⟩

/-! ## The forest of the replies -/

def parentIn (rows : List Message) (msgId : MsgId) : Option MsgId :=
  (rows.find? fun row => row.id == msgId).bind (parentOf rows)

section

variable (ordered : Ordered rows)

include ordered

theorem parentIn_eq (isRow : row ∈ rows) : parentIn rows row.id = parentOf rows row := by
  rw [parentIn, find?_of_nodup ordered.ids isRow, Option.bind_some]

theorem kids_eq (above : Option MsgId) :
    kids (rows.map (·.id)) (parentIn rows) above =
      (rows.filter fun row => parentOf rows row = above).map (·.id) := by
  rw [kids, List.filter_map]
  refine congrArg _ (List.filter_congr ?_)
  intro row isRow
  simp only [Function.comp_apply, parentIn_eq ordered isRow]

theorem childrenOf_eq (msgId : MsgId) :
    childrenOf rows msgId = kids (rows.map (·.id)) (parentIn rows) (some msgId) := by
  rw [kids_eq ordered, childrenOf]
  refine congrArg _ (List.filter_congr ?_)
  intro row _
  exact beq_eq_decide _ _

theorem rootsOf_eq : rootsOf rows = kids (rows.map (·.id)) (parentIn rows) none := by
  rw [kids_eq ordered, rootsOf]
  refine congrArg _ (List.filter_congr ?_)
  intro row _
  cases parentOf rows row with
  | none => rfl
  | some parent => rfl

theorem ranked_rows : Ranked (rows.map (·.id)) (parentIn rows) (orderOf rows) := by
  refine ⟨ordered.ids, ?_, ?_⟩
  · intro msgId member parent isParent
    obtain ⟨row, isRow, rfl⟩ := List.mem_map.mp member
    rw [parentIn_eq ordered isRow] at isParent
    obtain ⟨up, isUp, rfl, _⟩ := older_of_parentOf ordered isRow isParent
    exact List.mem_map_of_mem isUp
  · intro msgId member parent isParent
    obtain ⟨row, isRow, rfl⟩ := List.mem_map.mp member
    rw [parentIn_eq ordered isRow] at isParent
    obtain ⟨up, isUp, rfl, older⟩ := older_of_parentOf ordered isRow isParent
    exact (orderOf_lt_iff ordered isUp isRow).mpr older

end

end Rows

/-! ## The loop of `build_node` -/

variable {nodes : List ThreadNode}

section Building

variable {points : List MsgId} {parent : MsgId → Option MsgId} {rank : MsgId → Nat}
  {children : MsgId → List MsgId}

theorem enterAll (kids : List MsgId) (stack : List BuildStep) :
    kids.reverse.foldl (fun stack kid => .enter kid :: stack) stack =
      kids.map .enter ++ stack := by
  rw [List.foldl_reverse, List.foldr_cons_eq_append]

/-- Entering the message puts the node on top of what is done. -/
def Built (children : MsgId → List MsgId) (node : ThreadNode) : Prop :=
  ∀ stack done, Reaches (buildStep children) (2 * node.values.length)
    { stack := .enter node.root :: stack, done } { stack, done := done ++ [node] }

theorem reaches_all (built : ∀ node ∈ nodes, Built children node)
    (stack : List BuildStep) (done : List ThreadNode) :
    Reaches (buildStep children) (2 * (nodes.flatMap Rose.values).length)
      { stack := (nodes.map Rose.root).map .enter ++ stack, done }
      { stack, done := done ++ nodes } := by
  induction nodes generalizing done with
  | nil => simpa using Reaches.refl _
  | cons node rest ih =>
    have first := built node List.mem_cons_self
      ((rest.map Rose.root).map .enter ++ stack) done
    have others := ih (fun other member => built other (List.mem_cons_of_mem node member))
      (done ++ [node])
    have both := first.trans others
    rw [← Nat.mul_add, ← List.length_append] at both
    simpa using both

theorem built_node (roots : nodes.map Rose.root = children msgId)
    (built : ∀ node ∈ nodes, Built children node) : Built children (.node msgId nodes) := by
  intro stack done
  have count : (children msgId).length = nodes.length := by rw [← roots, List.length_map]
  have enters : buildStep children { stack := .enter msgId :: stack, done } =
      some { stack := (nodes.map Rose.root).map .enter ++
        .exit msgId nodes.length :: stack, done } := by
    simp only [buildStep, enterAll, roots, count]
  have exits : buildStep children
    { stack := .exit msgId nodes.length :: stack, done := done ++ nodes }
      = some { stack, done := done ++ [.node msgId nodes] } := by
    simp [buildStep]
  have whole := (Reaches.head enters (reaches_all built _ done)).trans
    (Reaches.head exits (Reaches.refl _))
  have steps : 2 * (nodes.flatMap Rose.values).length + 1 + (0 + 1) =
      2 * (Rose.node msgId nodes).values.length := by
    rw [values_node, List.length_cons]
    omega
  exact steps ▸ whole

theorem exists_nodes {P : ThreadNode → Prop} {msgIds : List MsgId}
    (each : ∀ msgId ∈ msgIds, ∃ node, Rose.root node = msgId ∧ P node) :
    ∃ nodes : List ThreadNode, nodes.map Rose.root = msgIds ∧ ∀ node ∈ nodes, P node := by
  induction msgIds with
  | nil => exact ⟨[], rfl, by simp⟩
  | cons msgId rest ih =>
    obtain ⟨node, rfl, holds⟩ := each _ List.mem_cons_self
    obtain ⟨nodes, rfl, all⟩ := ih fun other member => each other (List.mem_cons_of_mem _ member)
    exact ⟨node :: nodes, rfl, List.forall_mem_cons.mpr ⟨holds, all⟩⟩

theorem exists_built (ranked : Ranked points parent rank) {bound : Nat}
    (bounded : ∀ msgId ∈ points, rank msgId < bound)
    (same : ∀ msgId, children msgId = kids points parent (some msgId)) (isPoint : msgId ∈ points) :
    ∃ node, Rose.root node = msgId ∧ Grown points parent node ∧ Built children node := by
  induction left : bound - rank msgId using Nat.strongRecOn generalizing msgId with
  | _ n ih =>
    have each : ∀ kid ∈ children msgId, ∃ node, Rose.root node = kid ∧
        Grown points parent node ∧ Built children node := by
      intro kid isKid
      obtain ⟨kidPoint, isParent⟩ := mem_kids.mp (same msgId ▸ isKid)
      have higher := ranked.lt kid kidPoint msgId isParent
      have low := bounded kid kidPoint
      exact ih (bound - rank kid) (by omega) kidPoint rfl
    obtain ⟨nodes, roots, all⟩ := exists_nodes each
    exact ⟨.node msgId nodes, rfl,
      .node msgId nodes (roots.trans (same msgId)) fun node member => (all node member).1,
      built_node roots fun node member => (all node member).2⟩

theorem buildNode_of_built {node : ThreadNode} (built : Built children node)
    (enough : 2 * node.values.length < fuel) : buildNode fuel children node.root = some node := by
  have result := loop_of_reaches (built [] []) rfl enough
  simp [buildNode, result]

theorem mapM_roots {f : MsgId → Option ThreadNode}
    (each : ∀ node ∈ nodes, f node.root = some node) :
    (nodes.map Rose.root).mapM f = some nodes := by
  induction nodes with
  | nil => rfl
  | cons node rest ih =>
    have first := each node List.mem_cons_self
    have others := ih fun other member => each other (List.mem_cons_of_mem node member)
    simp [List.mapM_cons, first, others]

end Building

theorem length_values_le {points : List MsgId} {parent : MsgId → Option MsgId}
    {rank : MsgId → Nat} {trees : List ThreadNode} (forest : Forest points parent none trees)
    (ranked : Ranked points parent rank) : (trees.flatMap Rose.values).length = points.length := by
  refine List.Perm.length_eq ?_
  exact (List.perm_ext_iff_of_nodup (forest.nodup ranked) ranked.nodup).mpr
    fun _ => forest.mem_iff ranked

section Tree

variable [Unicode]

theorem tree_eq_some {rows : List Message} {threadId : ThreadId} {tables : ThreadTables}
    (isRows : threadRows threadId db tables = rows) (ordered : Ordered rows)
    (enough : 2 * rows.length < fuel) :
    ∃ nodes, tree fuel threadId db tables = some nodes ∧
      Forest (rows.map (·.id)) (parentIn rows) none nodes := by
  have ranked := ranked_rows ordered
  have bounded : ∀ msgId ∈ rows.map (·.id), orderOf rows msgId < rows.length := by
    intro msgId member
    obtain ⟨row, isRow, rfl⟩ := List.mem_map.mp member
    exact (getElem_orderOf ordered isRow).1
  have each : ∀ root ∈ rootsOf rows, ∃ node, Rose.root node = root ∧
      Grown (rows.map (·.id)) (parentIn rows) node ∧ Built (childrenOf rows) node := by
    intro root isRoot
    rw [rootsOf_eq ordered] at isRoot
    exact exists_built ranked bounded (childrenOf_eq ordered) (mem_kids.mp isRoot).1
  obtain ⟨nodes, roots, all⟩ := exists_nodes each
  have forest : Forest (rows.map (·.id)) (parentIn rows) none nodes :=
    ⟨roots.trans (rootsOf_eq ordered), fun node member => (all node member).1⟩
  refine ⟨nodes, ?_, forest⟩
  have size := length_values_le forest ranked
  rw [List.length_map] at size
  simp only [tree, isRows]
  rw [← roots]
  refine mapM_roots fun node member => buildNode_of_built (all node member).2 ?_
  have part : node.values.length ≤ (nodes.flatMap Rose.values).length := by
    rw [List.flatMap_def]
    exact (List.sublist_flatten_of_mem (List.mem_map_of_mem member)).length_le
  omega

end Tree

/-! ## The loop of `flatten_thread` -/

/-- One level deeper, in `u32`. -/
def deeper (depth : Nat) : Nat := min (depth + 1) u32Max

def threadItem (item : Item MsgId) : ThreadItem :=
  { msgId := item.value, parentMsgId := item.parent, depth := item.depth }

theorem pushAll (children : List ThreadNode) (parent : Option MsgId) (depth : Nat)
    (stack : List (ThreadNode × Option MsgId × Nat)) :
    children.reverse.foldl (fun stack child => (child, parent, depth) :: stack) stack =
      children.map (fun child => (child, parent, depth)) ++ stack := by
  rw [List.foldl_reverse, List.foldr_cons_eq_append]

theorem reaches_flattened_all {parent : Option MsgId} {depth : Nat}
    (each : ∀ node ∈ nodes, ∀ stack out, Reaches flattenStep node.values.length
      { stack := (node, parent, depth) :: stack, out }
      { stack, out := out ++ (node.preorder deeper parent depth).map threadItem })
    (stack : List (ThreadNode × Option MsgId × Nat)) (out : List ThreadItem) :
    Reaches flattenStep (nodes.flatMap Rose.values).length
      { stack := nodes.map (fun node => (node, parent, depth)) ++ stack, out }
      { stack
        out := out ++ (nodes.flatMap (Rose.preorder deeper parent depth)).map threadItem } := by
  induction nodes generalizing out with
  | nil => simpa using Reaches.refl _
  | cons node rest ih =>
    have first := each node List.mem_cons_self
      (rest.map (fun node => (node, parent, depth)) ++ stack) out
    have others := ih (fun other member => each other (List.mem_cons_of_mem node member))
      (out ++ (node.preorder deeper parent depth).map threadItem)
    have both := first.trans others
    rw [← List.length_append] at both
    simpa using both

theorem reaches_flattened (node : ThreadNode) : ∀ parent depth stack out,
    Reaches flattenStep node.values.length
      { stack := (node, parent, depth) :: stack, out }
      { stack, out := out ++ (node.preorder deeper parent depth).map threadItem } := by
  induction node using Rose.ind with
  | node msgId children ih =>
    intro parent depth stack out
    have taken : flattenStep { stack := (.node msgId children, parent, depth) :: stack, out } =
        some
          { stack := children.map (fun child => (child, some msgId, deeper depth)) ++ stack
            out := out ++ [{ msgId, parentMsgId := parent, depth }] } := by
      simp only [flattenStep, pushAll, deeper]
    have below := reaches_flattened_all
      (fun child isChild => ih child isChild (some msgId) (deeper depth)) stack
      (out ++ [{ msgId, parentMsgId := parent, depth }])
    have whole := Reaches.head taken below
    rw [values_node, preorder_node, List.length_cons]
    simpa [threadItem] using whole

theorem flattenThread_eq (nodes : List ThreadNode)
    (enough : (nodes.flatMap Rose.values).length < fuel) :
    flattenThread fuel nodes =
      some ((nodes.flatMap (Rose.preorder deeper none 0)).map threadItem) := by
  have reaches := reaches_flattened_all (fun node (_ : node ∈ nodes) =>
    reaches_flattened node none 0) [] []
  rw [List.append_nil, List.nil_append] at reaches
  simp [flattenThread, loop_of_reaches reaches rfl enough]

/-! ## What is shown -/

section Shown

variable [Unicode]

structure Shown (threadId : ThreadId) (db : Db) (tables : ThreadTables) (items : List ThreadItem) :
    Prop where
  once : (items.map (·.msgId)).Nodup
  all : ∀ msgId, msgId ∈ items.map (·.msgId) ↔ ∃ msg ∈ db.msgs, msg.id = msgId ∧
    msg.isLive = true ∧ ∃ row ∈ tables.msgThreads, row.msgId = msgId ∧ row.threadId = threadId
  afterParent : ∀ before item after, items = before ++ item :: after →
    match item.parentMsgId with
    | none => item.depth = 0
    | some parent => ∃ up ∈ before, up.msgId = parent ∧ item.depth = up.depth + 1
  parents : ∀ item ∈ items, ∀ msg ∈ db.msgs, msg.id = item.msgId →
    IsParent (threadRows threadId db tables) msg item.parentMsgId
  oldestFirst : ∀ parent,
    ((items.filter fun item => item.parentMsgId = parent).map (·.msgId)).Pairwise
      fun first second =>
      ∃ a ∈ db.msgs, ∃ b ∈ db.msgs, a.id = first ∧ b.id = second ∧ Older a b

omit [Unicode] in
theorem length_le_of_small {msgIds : List MsgId} (nodup : msgIds.Nodup) {bound : Nat}
    (small : ∀ msgId ∈ msgIds, msgId < bound) : msgIds.length ≤ bound := by
  have inside : msgIds ⊆ List.range bound :=
    fun msgId member => List.mem_range.mpr (small msgId member)
  simpa using (List.subperm_of_subset nodup inside).length_le

section Display

variable {rows : List Message} {nodes : List ThreadNode}

/-- The pre-order of the forest. -/
def display (nodes : List ThreadNode) : List (Item MsgId) :=
  nodes.flatMap (Rose.preorder deeper none 0)

omit [Unicode] in
theorem map_value_display (nodes : List ThreadNode) :
    (display nodes).map Item.value = nodes.flatMap Rose.values :=
  map_flatMap_preorder (fun node _ => map_value_preorder node) none 0

theorem isRow_of_display (ordered : Ordered rows)
    (forest : Forest (rows.map (·.id)) (parentIn rows) none nodes) (member : item ∈ display nodes) :
    item.value ∈ rows.map (·.id) := by
  have inside : item.value ∈ nodes.flatMap Rose.values :=
    map_value_display nodes ▸ List.mem_map_of_mem member
  exact (forest.mem_iff (ranked_rows ordered)).mp inside

theorem parent_of_display (forest : Forest (rows.map (·.id)) (parentIn rows) none nodes)
    (member : item ∈ display nodes) : item.parent = parentIn rows item.value := by
  obtain ⟨before, after, split⟩ := List.append_of_mem member
  exact (forest.laid.hangs split).1

theorem afterParent_of_display (ordered : Ordered rows) (few : rows.length ≤ 2 ^ 32)
    (forest : Forest (rows.map (·.id)) (parentIn rows) none nodes)
    {before after : List (Item MsgId)} (split : display nodes = before ++ item :: after) :
    Hangs (· + 1) before item.parent item.depth := by
  have ranked := ranked_rows ordered
  have slow : ∀ depth, deeper depth ≤ depth + 1 := fun depth => min_le_left _ _
  have shallow := forest.laid.depth_le ranked slow (by simp)
    (fun item member => isRow_of_display ordered forest member)
  have isItem : item ∈ display nodes := split ▸ List.mem_append_right _ List.mem_cons_self
  obtain ⟨named, hangs⟩ := forest.laid.hangs split
  rw [List.nil_append] at hangs
  cases isParent : item.parent with
  | none =>
    rw [isParent] at hangs
    exact hangs
  | some parent =>
    rw [isParent] at hangs
    obtain ⟨up, member, rfl, depth⟩ := hangs
    refine ⟨up, member, rfl, ?_⟩
    have low := shallow up (split ▸ List.mem_append_left _ member)
    have isPoint := isRow_of_display ordered forest isItem
    have higher := ranked.lt item.value isPoint up.value (named.symm.trans isParent)
    obtain ⟨row, isRow, same⟩ := List.mem_map.mp isPoint
    have last := (getElem_orderOf ordered isRow).1
    rw [same] at last
    change item.depth = up.depth + 1
    rw [depth, deeper]
    exact min_eq_left (by
      unfold u32Max
      omega)

theorem siblings_of_display (ordered : Ordered rows)
    (forest : Forest (rows.map (·.id)) (parentIn rows) none nodes) (parent : Option MsgId) :
    ((display nodes).filter fun item => item.parent = parent).map Item.value =
      (rows.filter fun row => parentOf rows row = parent).map (·.id) := by
  have named : (display nodes).filter (fun item => item.parent = parent) =
      (display nodes).filter ((fun msgId => parentIn rows msgId = parent) ∘ Item.value) := by
    refine List.filter_congr ?_
    intro item member
    simp only [Function.comp_apply, parent_of_display forest member]
  rw [named, ← List.filter_map, map_value_display, forest.filter_values (ranked_rows ordered),
    kids_eq ordered]

end Display

/-- The display of a thread shows every message that is there once, after the
message it replies to and one level deeper, siblings oldest first. -/
theorem thread_shown_whole (threadId : ThreadId) (db : Db) (tables : ThreadTables)
    (ids : (db.msgs.map (·.id)).Nodup) (small : ∀ msg ∈ db.msgs, msg.id < 2 ^ 32) {fuel : Nat}
    (enough : 2 * (threadRows threadId db tables).length < fuel) :
    ∃ nodes items, tree fuel threadId db tables = some nodes ∧
      flattenThread fuel nodes = some items ∧ Shown threadId db tables items := by
  have ordered := ordered_threadRows threadId tables ids
  have ranked := ranked_rows ordered
  obtain ⟨nodes, isTree, forest⟩ := tree_eq_some rfl ordered enough
  have size := length_values_le forest ranked
  rw [List.length_map] at size
  refine ⟨nodes, (display nodes).map threadItem, isTree, flattenThread_eq nodes (by omega), ?_⟩
  have few : (threadRows threadId db tables).length ≤ 2 ^ 32 := by
    have smallIds : ∀ msgId ∈ (threadRows threadId db tables).map (·.id), msgId < 2 ^ 32 := by
      intro msgId member
      obtain ⟨row, isRow, rfl⟩ := List.mem_map.mp member
      exact small row (mem_threadRows.mp isRow).1
    simpa only [List.length_map] using length_le_of_small ordered.ids smallIds
  have msgIds : ((display nodes).map threadItem).map (·.msgId) = nodes.flatMap Rose.values := by
    rw [List.map_map, ← map_value_display]
    rfl
  refine ⟨?_, ?_, ?_, ?_, ?_⟩
  · rw [msgIds]
    exact forest.nodup ranked
  · intro msgId
    rw [msgIds, forest.mem_iff ranked, List.mem_map]
    constructor
    · rintro ⟨msg, isRow, rfl⟩
      obtain ⟨member, isLive, inThread⟩ := mem_threadRows.mp isRow
      exact ⟨msg, member, rfl, isLive, inThread⟩
    · rintro ⟨msg, member, rfl, isLive, inThread⟩
      exact ⟨msg, mem_threadRows.mpr ⟨member, isLive, inThread⟩, rfl⟩
  · intro before item after split
    obtain ⟨early, rest, whole, rfl, restEq⟩ := List.map_eq_append_iff.mp split
    obtain ⟨shown, late, rfl, rfl, rfl⟩ := List.map_eq_cons_iff.mp restEq
    have hangs := afterParent_of_display ordered few forest whole
    change match shown.parent with
      | none => shown.depth = 0
      | some parent => ∃ up ∈ early.map threadItem, up.msgId = parent ∧ shown.depth = up.depth + 1
    cases isParent : shown.parent with
    | none =>
      rw [isParent] at hangs
      exact hangs
    | some parent =>
      rw [isParent] at hangs
      obtain ⟨up, member, isUp, depth⟩ := hangs
      exact ⟨threadItem up, List.mem_map_of_mem member, isUp, depth⟩
  · intro item isItem msg member same
    obtain ⟨shown, isShown, rfl⟩ := List.mem_map.mp isItem
    obtain ⟨row, isRow, sameRow⟩ := List.mem_map.mp (isRow_of_display ordered forest isShown)
    have isMsg : row = msg :=
      eq_of_key_eq ids (mem_threadRows.mp isRow).1 member (sameRow.trans same.symm)
    subst isMsg
    have spec := isParent_parentOf ordered isRow
    rw [← parentIn_eq ordered isRow, sameRow, ← parent_of_display forest isShown] at spec
    exact spec
  · intro parent
    have siblings : (((display nodes).map threadItem).filter fun item =>
        item.parentMsgId = parent).map (·.msgId) =
        ((threadRows threadId db tables).filter fun row =>
          parentOf (threadRows threadId db tables) row = parent).map (·.id) := by
      rw [← siblings_of_display ordered forest, List.filter_map, List.map_map]
      rfl
    rw [siblings, List.pairwise_map]
    refine (ordered.older.filter _).imp_of_mem ?_
    intro a b isFirst isSecond older
    exact ⟨a, (mem_threadRows.mp (List.mem_filter.mp isFirst).1).1, b,
      (mem_threadRows.mp (List.mem_filter.mp isSecond).1).1, rfl, rfl, older⟩

end Shown

section

local instance : Unicode := asciiTables

def loopDb : Db :=
  { msgs :=
      [{ id := 11, rfc724Mid := "b".toList, timestamp := 7, mimeReferences := "<a>".toList },
        { id := 10, rfc724Mid := "a".toList, timestamp := 5, mimeInReplyTo := "<b>".toList }] }

def loopTables : ThreadTables :=
  { msgThreads := [{ msgId := 10, threadId := 1 }, { msgId := 11, threadId := 1 }] }

theorem loop_shown_whole : (∃ nodes items, tree 5 1 loopDb loopTables = some nodes ∧
      flattenThread 5 nodes = some items ∧ Shown 1 loopDb loopTables items) ∧
    (tree 5 1 loopDb loopTables).bind (flattenThread 5) =
      some [{ msgId := 10, parentMsgId := none, depth := 0 },
        { msgId := 11, parentMsgId := some 10, depth := 1 }] :=
  ⟨thread_shown_whole 1 loopDb loopTables (by decide) (by decide) (by decide), by decide⟩

end

end Eeemail.ThreadTree
