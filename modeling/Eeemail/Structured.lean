import Eeemail.Store
import Eeemail.Lib.ByteTexts
import Eeemail.Lib.JsonTrees

/-! # What is extracted as structured data

`script_blocks` of `email/structured.rs` scans the bytes of a body for scripts.
`push_json` reads a document with `serde_json` and stores what it prints again;
that library is a parameter with the laws of its documentation. -/

set_option autoImplicit false

namespace Eeemail.Structured

open Lib.Texts Lib.ByteTexts Lib.JsonTrees Store

/-! ## Scripts -/

def eqIgnoreAsciiCase (s t : Bytes) : Bool := s.map lowerByte == t.map lowerByte

def windows (size : Nat) : Bytes → List Bytes
  | [] => []
  | b :: rest =>
    if rest.length + 1 < size then [] else (b :: rest).take size :: windows size rest

def findAsciiCi (haystack needle : Bytes) (start : Nat) : Option Nat :=
  if haystack.length < start then none
  else
    let tail := haystack.drop start
    if needle.isEmpty || decide (tail.length < needle.length) then none
    else ((windows needle.length tail).findIdx? (eqIgnoreAsciiCase · needle)).map (start + ·)

def scriptTag : Bytes := bytes "<script".toList

def ldJson : Bytes := bytes "application/ld+json".toList

def scriptEnd : Bytes := bytes "</script".toList

/-- The loop of `script_blocks`.  Nothing, should it run longer than it may. -/
def scriptLoop (html : Text) : Nat → Nat → List Text → Option (List Text)
  | 0, _, _ => none
  | fuel + 1, cursor, blocks =>
    match findAsciiCi (bytes html) scriptTag cursor with
    | none => some blocks
    | some tagStart =>
      match (findAsciiCi (bytes html) [62] tagStart).map (· + 1) with
      | none => some blocks
      | some openEnd =>
        let isLdJson := (findAsciiCi (bytes html) ldJson tagStart).any (· < openEnd)
        match findAsciiCi (bytes html) scriptEnd openEnd with
        | none => some blocks
        | some bodyEnd =>
          let body := if isLdJson then slice html openEnd bodyEnd else none
          scriptLoop html fuel bodyEnd (blocks ++ body.toList)

/-- `script_blocks`.  Each round of the loop is for another place. -/
def scriptBlocks (html : Text) : Option (List Text) :=
  scriptLoop html ((bytes html).length + 1) 0 []

/-- A script: its tag, up to the first `>`, and then its content, up to the first `</script`. -/
structure IsScript (html before tag body rest : Bytes) : Prop where
  whole : html = before ++ (tag ++ 62 :: (body ++ rest))
  opened : FirstAt scriptTag before (tag ++ 62 :: (body ++ rest))
  ended : FirstAt [62] tag (62 :: (body ++ rest))
  closed : FirstAt scriptEnd body rest

/-- The contents of the scripts whose tags name `application/ld+json`, in order. -/
inductive Scripts : Bytes → List Bytes → Prop where
  | last {html : Bytes} (none : ∀ before tag body rest, ¬IsScript html before tag body rest) :
      Scripts html []
  | next {html before tag body rest : Bytes} {blocks : List Bytes}
      (script : IsScript html before tag body rest) (later : Scripts rest blocks) :
      Scripts html (if ldJson <:+: tag.map lowerByte then body :: blocks else blocks)

theorem eqIgnoreAsciiCase_take (needle s : Bytes) :
    eqIgnoreAsciiCase (s.take needle.length) needle =
      (needle.map lowerByte).isPrefixOf (s.map lowerByte) := by
  rw [Bool.eq_iff_iff, eqIgnoreAsciiCase, beq_iff_eq, List.isPrefixOf_iff_prefix,
    List.prefix_iff_eq_take, List.map_take, List.length_map, eq_comm]

theorem windows_eq_nil {size : Nat} {s : Bytes} (short : s.length < size) :
    windows size s = [] := by
  cases s with
  | nil => rfl
  | cons b s => exact if_pos short

theorem findIdx?_windows (needle s : Bytes) :
    (windows needle.length s).findIdx? (eqIgnoreAsciiCase · needle) =
      (cut (needle.map lowerByte) s).map (·.1.length) := by
  induction s with
  | nil => rfl
  | cons b s ih =>
    rw [windows, cut, ← eqIgnoreAsciiCase_take]
    split
    next short =>
      have notHere : eqIgnoreAsciiCase ((b :: s).take needle.length) needle = false := by
        rw [eqIgnoreAsciiCase_take, ← Bool.not_eq_true, List.isPrefixOf_iff_prefix]
        intro begins
        have := begins.length_le
        simp at this
        omega
      rw [windows_eq_nil (Nat.lt_of_succ_lt short)] at ih
      rw [notHere, Option.map_eq_none_iff.mp ih.symm]
      rfl
    next =>
      rw [List.findIdx?_cons, ih]
      split <;> simp [Function.comp_def]

theorem findAsciiCi_cases (word : Bytes) (nonempty : word ≠ [])
    (isLower : word.map lowerByte = word) (front s : Bytes) :
    (findAsciiCi (front ++ s) word front.length = none ∧ ¬word <:+: s.map lowerByte) ∨
      ∃ before back, s = before ++ back ∧ FirstAt word before back ∧
        findAsciiCi (front ++ s) word front.length = some (front ++ before).length := by
  have found : findAsciiCi (front ++ s) word front.length =
      (cut word s).map fun parts => (front ++ parts.1).length := by
    have located := findIdx?_windows word s
    rw [isLower] at located
    rw [findAsciiCi, if_neg (by simp), List.drop_left]
    dsimp only
    split
    next none =>
      rcases (Bool.or_eq_true _ _).mp none with isEmpty | short
      · exact absurd (List.isEmpty_iff.mp isEmpty) nonempty
      · rw [windows_eq_nil (of_decide_eq_true short), List.findIdx?_nil] at located
        rw [Option.map_eq_none_iff.mp located.symm]
        rfl
    next => simp [located, Function.comp_def]
  rw [found]
  cases isCut : cut word s with
  | none => exact Or.inl ⟨rfl, not_infix_of_cut_eq_none nonempty isCut⟩
  | some parts =>
    obtain ⟨before, back⟩ := parts
    obtain ⟨whole, first⟩ := cut_eq_some isCut
    exact Or.inr ⟨before, back, whole, first, rfl⟩

theorem names_iff (front tag after : Bytes) :
    (findAsciiCi (front ++ (tag ++ 62 :: after)) ldJson front.length).any
      (· < (front ++ tag).length + 1) = decide (ldJson <:+: tag.map lowerByte) := by
  rw [Bool.eq_iff_iff, decide_eq_true_iff]
  rcases findAsciiCi_cases ldJson (by decide) (by decide) front (tag ++ 62 :: after)
    with ⟨notFound, absent⟩ | ⟨before, back, same, first, isFound⟩
  · rw [notFound]
    refine iff_of_false (by simp) fun named => absent ?_
    rw [List.map_append]
    exact named.trans (List.prefix_append _ _).isInfix
  · rw [isFound, Option.any_some, decide_eq_true_iff]
    rcases List.append_eq_append_iff.mp same with ⟨more, rfl, isBack⟩ | ⟨more, rfl, rfl⟩
    · -- The word is first found at the `>` or after it, so that it is not in the tag.
      refine iff_of_false ?_ fun named => ?_
      · cases more with
        | nil =>
          rw [List.nil_append] at isBack
          have begins := isBack ▸ first.1
          exact absurd (List.cons_prefix_cons.mp begins).1 (by decide)
        | cons b more => simp
      · obtain ⟨start, rest, isTag⟩ := named
        have inside : ldJson <+: (tag.drop start.length).map lowerByte := by
          rw [List.map_drop, ← isTag, List.append_assoc, List.drop_left]
          exact List.prefix_append _ _
        have earlier := first.2 (tag.drop start.length ++ 62 :: after)
          ⟨tag.take start.length, by rw [← List.append_assoc, List.take_append_drop, same]⟩
          (by rw [List.map_append]; exact inside.trans (List.prefix_append _ _))
        have longer := inside.length_le
        have sizes := congrArg List.length isBack
        have filled : 0 < ldJson.length := by decide
        simp only [List.length_append, List.length_cons, List.length_map] at earlier longer sizes
        omega
    · have begins := first.1
      rw [List.map_append] at begins
      have inTag := prefix_of_prefix_append (by decide) begins
      refine iff_of_true (by simp) ?_
      rw [List.map_append]
      exact inTag.isInfix.trans (List.suffix_append _ _).isInfix

theorem scriptLoop_spec {html : Text} (fuel : Nat) (front rest : Bytes) (blocks : List Text)
    (whole : bytes html = front ++ rest) (enough : rest.length < fuel) :
    ∃ found, scriptLoop html fuel front.length blocks = some (blocks ++ found) ∧
      Scripts rest (found.map bytes) := by
  induction fuel generalizing front rest blocks with
  | zero => omega
  | succ fuel ih =>
    rw [scriptLoop, whole]
    rcases findAsciiCi_cases scriptTag (by decide) (by decide) front rest
      with ⟨notFound, absent⟩ | ⟨before, opened, rfl, isOpened, isFound⟩
    · rw [notFound]
      refine ⟨[], by simp, .last fun before tag body rest script => absent ?_⟩
      rw [script.whole]
      exact script.opened.within
    rw [isFound, ← List.append_assoc]
    rcases findAsciiCi_cases [62] (by decide) (by decide) (front ++ before) opened
      with ⟨notFound, absent⟩ | ⟨tag, ended, rfl, isEnded, isFound⟩
    · simp only [notFound, Option.map_none]
      refine ⟨[], by simp, .last fun before' tag body rest script => absent ?_⟩
      obtain ⟨_, rfl⟩ := isOpened.unique script.opened script.whole
      exact script.ended.within
    obtain ⟨after, rfl⟩ := isEnded.eq_cons rfl (by decide +kernel)
    simp only [isFound, Option.map_some, names_iff]
    have start : front ++ before ++ (tag ++ 62 :: after) =
        front ++ before ++ tag ++ [62] ++ after := by simp
    have openEnd : (front ++ before ++ tag).length + 1 =
        (front ++ before ++ tag ++ [62]).length := by simp [Nat.add_assoc]
    rw [start, openEnd]
    rcases findAsciiCi_cases scriptEnd (by decide) (by decide) (front ++ before ++ tag ++ [62])
      after with ⟨notFound, absent⟩ | ⟨body, rest, rfl, isClosed, isFound⟩
    · rw [notFound]
      refine ⟨[], by simp, .last fun before' tag' body rest script => absent ?_⟩
      obtain ⟨_, opened⟩ := isOpened.unique script.opened script.whole
      obtain ⟨_, ended⟩ := isEnded.unique script.ended opened
      rw [List.cons_injective ended]
      exact script.closed.within
    have script : IsScript _ before tag body rest := ⟨rfl, isOpened, isEnded, isClosed⟩
    obtain ⟨after, rfl⟩ := isClosed.eq_cons (b := 60) rfl (by decide +kernel)
    obtain ⟨text, isText, isBody⟩ := exists_slice (a := 62) (b := 60) (by decide) (by decide)
      (show bytes html = front ++ before ++ tag ++ 62 :: (body ++ 60 :: after) by rw [whole]; simp)
    simp only [isFound]
    obtain ⟨found, isRun, later⟩ := ih (front ++ before ++ tag ++ [62] ++ body) (60 :: after)
      (blocks ++ (if ldJson <:+: tag.map lowerByte then some text else none).toList)
      (by rw [whole]; simp) (by simp at enough ⊢; omega)
    simp only [isText, decide_eq_true_eq]
    refine ⟨_, isRun.trans (by rw [List.append_assoc]), ?_⟩
    convert Scripts.next script later using 1
    split <;> simp [isBody]

theorem scriptBlocks_spec (html : Text) :
    ∃ blocks, scriptBlocks html = some blocks ∧ Scripts (bytes html) (blocks.map bytes) :=
  scriptLoop_spec _ [] (bytes html) [] rfl (Nat.lt_succ_self _)

/-- What is used of `serde_json`, beside the grammar of JSON.  Its values keep objects in maps
and numbers in a type of its own. -/
class SerdeJson where
  Numeral : Type
  value : Numeral → ℚ
  /-- The document that a text is, by the grammar. -/
  document : Text → Option (Json Numeral)
  Value : Type
  content : Value → Json ℚ
  /-- The number that is printed again for one that is written. -/
  kept : Numeral → ℚ
  fromStr : Text → Option Value
  toText : Value → Text
  get : Text → Value → Option Value
  asArray : Value → Option (List Value)
  document_of_fromStr : ∀ {text v}, fromStr text = some v →
    (document text).map (·.transform kept asMap) = some (content v)
  document_toText : ∀ v, (document (toText v)).map (·.transform value arranged) = some (content v)
  content_get : ∀ key v, (get key v).map content = (content v).field (key.map Char.toNat)
  content_asArray : ∀ v, (asArray v).map (·.map content) = (content v).items

section Extraction

variable [SerdeJson]

open SerdeJson (Numeral Value)

def pushJson (text : Text) (source : StructuredSource) (found : List (Text × StructuredSource)) :
    List (Text × StructuredSource) :=
  match SerdeJson.fromStr text with
  | none => found
  | some value =>
    match (SerdeJson.get "@graph".toList value).bind SerdeJson.asArray with
    | some members =>
      members.foldl (fun found member => found ++ [(SerdeJson.toText member, source)]) found
    | none => found ++ [(SerdeJson.toText value, source)]

/-! ## What is stored -/

/-- The value of a document: neither the order of fields nor the spelling of a number
counts, a repeated key does. -/
def meaning (doc : Json Numeral) : Json ℚ := doc.transform SerdeJson.value arranged

def denoted (text : Text) : Option (Json ℚ) := (SerdeJson.document text).map meaning

def stored (doc : Json Numeral) : Json ℚ := doc.transform SerdeJson.kept asMap

def lossless (doc : Json Numeral) : Bool :=
  doc.all (fun n => decide (SerdeJson.kept n = SerdeJson.value n)) fun keys => decide keys.Nodup

variable {doc : Json Numeral}

theorem stored_eq_meaning_iff (doc : Json Numeral) :
    stored doc = meaning doc ↔ lossless doc = true :=
  transform_asMap_eq_iff _ _ doc

theorem nodup_of_stored_eq {fields : List (Points × Json Numeral)}
    (same : stored doc = meaning (.object fields)) : (fields.map (·.1)).Nodup := by
  rw [meaning, transform_object] at same
  cases doc with
  | object others =>
    rw [stored, transform_object, Json.object.injEq] at same
    have keys := ((perm_arranged _).symm.trans (List.Perm.of_eq same.symm)).map Prod.fst
    rw [keys_map] at keys
    exact keys.nodup_iff.mpr (nodup_asMap _)
  | array items => simp [stored, transform_array] at same
  | _ => simp [stored, Json.transform, Json.fold] at same

def graphKey : Points := "@graph".toList.map Char.toNat

/-- What the document is about: the members of its `@graph`, or itself. -/
def members : Json Numeral → List (Json Numeral)
  | .object fields =>
    match fields.filter (·.1 == graphKey) with
    | [(_, .array items)] => items
    | _ => [.object fields]
  | doc => [doc]

/-- What is pushed of the document: of a repeated `@graph` the last counts. -/
def pushed : Json Numeral → List (Json Numeral)
  | .object fields =>
    match (fields.filter (·.1 == graphKey)).getLast? with
    | some (_, .array items) => items
    | _ => [.object fields]
  | doc => [doc]

theorem graph_cases (doc : Json Numeral) :
    ((stored doc).field graphKey).bind Json.items = none ∧ pushed doc = [doc] ∨
      ((stored doc).field graphKey).bind Json.items = some ((pushed doc).map stored) := by
  cases doc with
  | object fields =>
    rw [stored, field_transform_asMap, pushed]
    generalize (fields.filter (·.1 == graphKey)).getLast? = last
    match last with
    | some (_, .array items) =>
      refine Or.inr ?_
      rw [Option.map_some, Option.bind_some, transform_array]
      rfl
    | none => exact Or.inl ⟨rfl, rfl⟩
    | some (_, .null) | some (_, .bool b) | some (_, .number n) | some (_, .string points)
    | some (_, .object inner) => exact Or.inl ⟨rfl, rfl⟩
  | array items => exact Or.inl ⟨by rw [stored, transform_array]; rfl, rfl⟩
  | _ => exact Or.inl ⟨rfl, rfl⟩

theorem content_graph (value : Value) :
    ((SerdeJson.get "@graph".toList value).bind SerdeJson.asArray).map (·.map SerdeJson.content) =
      ((SerdeJson.content value).field graphKey).bind Json.items := by
  rw [graphKey, ← SerdeJson.content_get]
  cases SerdeJson.get "@graph".toList value with
  | none => rfl
  | some graph => exact SerdeJson.content_asArray graph

theorem pushJson_of_fromStr {text : Text} {value : Value}
    (isRead : SerdeJson.fromStr text = some value) (isDocument : SerdeJson.document text = some doc)
    (source : StructuredSource) (found : List (Text × StructuredSource)) :
    ∃ texts : List Text, pushJson text source found = found ++ texts.map (·, source) ∧
      texts.map denoted = (pushed doc).map fun item => some (stored item) := by
  have pushes : ∀ (values : List Value) found,
      values.foldl (fun found value => found ++ [(SerdeJson.toText value, source)]) found =
        found ++ (values.map SerdeJson.toText).map (·, source) := by
    intro values
    induction values with
    | nil => simp
    | cons value others ih => simp [ih]
  have isContent : SerdeJson.content value = stored doc := by
    have same := SerdeJson.document_of_fromStr isRead
    rw [isDocument, Option.map_some] at same
    exact (Option.some.inj same).symm
  have graph := content_graph value
  rw [isContent] at graph
  simp only [pushJson, isRead]
  cases isGraph : (SerdeJson.get "@graph".toList value).bind SerdeJson.asArray with
  | none =>
    refine ⟨[SerdeJson.toText value], rfl, ?_⟩
    rcases graph_cases doc with ⟨_, single⟩ | isSome
    · rw [single, List.map_singleton, List.map_singleton, denoted, ← isContent]
      exact congrArg (fun found => [found]) (SerdeJson.document_toText value)
    · rw [isGraph, isSome] at graph
      cases graph
  | some values =>
    refine ⟨_, pushes values found, ?_⟩
    rcases graph_cases doc with ⟨isNone, _⟩ | isSome
    · rw [isGraph, isNone] at graph
      cases graph
    · rw [isGraph, isSome, Option.map_some, Option.some_inj] at graph
      have each := congrArg (List.map some) graph
      rw [List.map_map, List.map_map] at each
      rw [List.map_map]
      exact (List.map_congr_left fun member _ => SerdeJson.document_toText member).trans each

/-- The texts denote what the document is about, one by one. -/
def Faithful (texts : List Text) (doc : Json Numeral) : Prop :=
  texts.map denoted = (members doc).map fun member => some (meaning member)

theorem members_cases (doc : Json Numeral) :
    pushed doc = members doc ∨
      ∃ fields, doc = .object fields ∧ members doc = [doc] ∧ ¬(fields.map (·.1)).Nodup := by
  cases doc with
  | object fields =>
    rw [pushed, members]
    generalize graphs : fields.filter (·.1 == graphKey) = found
    match found with
    | [] => exact Or.inl rfl
    | [(key, .array items)] => exact Or.inl rfl
    | [(key, .null)] | [(key, .bool b)] | [(key, .number n)] | [(key, .string points)]
    | [(key, .object inner)] => exact Or.inl rfl
    | one :: two :: more =>
      refine Or.inr ⟨fields, rfl, by simp, fun nodup => ?_⟩
      have distinct := nodup.sublist (List.filter_sublist (p := (·.1 == graphKey)).map Prod.fst)
      have keys : ∀ field ∈ fields.filter (·.1 == graphKey), field.1 = graphKey :=
        fun field member => eq_of_beq (List.mem_filter.mp member).2
      rw [graphs] at distinct keys
      simp [keys one, keys two] at distinct
  | _ => exact Or.inl rfl

theorem faithful_iff {texts : List Text}
    (denote : texts.map denoted = (pushed doc).map fun item => some (stored item)) :
    Faithful texts doc ↔ ∀ member ∈ members doc, lossless member = true := by
  rw [Faithful, denote]
  rcases members_cases doc with same | ⟨fields, rfl, isWhole, repeated⟩
  · simp [same, stored_eq_meaning_iff]
  · rw [isWhole]
    refine iff_of_false (fun faithful => ?_) fun kept => ?_
    · obtain ⟨item, _, same⟩ := List.map_eq_singleton_iff.mp faithful
      exact repeated (nodup_of_stored_eq (Option.some.inj same))
    · have whole := kept _ (List.mem_singleton_self _)
      rw [lossless, all_object_iff, decide_eq_true_eq] at whole
      exact repeated whole.1

/-- Every script with structured data is found.  What is stored of a document means the same
exactly if `serde_json` reads it and can keep all of it: no repeated key, and no number that its
numbers do not have. -/
theorem extraction_faithful_iff :
    (∀ html, ∃ blocks, scriptBlocks html = some blocks ∧
        Scripts (bytes html) (blocks.map bytes)) ∧
      ∀ text source found,
        match SerdeJson.document text with
        | none => pushJson text source found = found
        | some doc => ∃ texts, pushJson text source found = found ++ texts.map (·, source) ∧
            (Faithful texts doc ↔
              ∀ member ∈ members doc, (SerdeJson.fromStr text).isSome = true ∧
                lossless member = true) := by
  refine ⟨scriptBlocks_spec, fun text source found => ?_⟩
  cases isRead : SerdeJson.fromStr text with
  | none =>
    cases isDocument : SerdeJson.document text with
    | none => simp [pushJson, isRead]
    | some doc =>
      refine ⟨[], by simp [pushJson, isRead], ?_⟩
      simp [Faithful, eq_comm (a := []), List.eq_nil_iff_forall_not_mem]
  | some value =>
    have isKept := SerdeJson.document_of_fromStr isRead
    cases isDocument : SerdeJson.document text with
    | none =>
      rw [isDocument] at isKept
      cases isKept
    | some doc =>
      obtain ⟨texts, isPushed, denote⟩ := pushJson_of_fromStr isRead isDocument source found
      refine ⟨texts, isPushed, ?_⟩
      rw [faithful_iff denote]
      simp

end Extraction

def onceText : Text := "\x7b\"a\":2\x7d".toList

def twiceText : Text := "\x7b\"a\":1,\"a\":2\x7d".toList

@[reducible] def sampleJson : SerdeJson where
  Numeral := ℚ
  value := id
  document text :=
    if text = twiceText then some (.object [([97], .number 1), ([97], .number 2)])
    else if text = onceText then some (.object [([97], .number 2)])
    else if text = "2".toList then some (.number 2)
    else none
  Value := Bool
  content isObject := if isObject then .object [([97], .number 2)] else .number 2
  kept := id
  fromStr text :=
    if text = twiceText ∨ text = onceText then some true
    else if text = "2".toList then some false
    else none
  toText isObject := if isObject then onceText else "2".toList
  get key isObject := if isObject ∧ key = "a".toList then some false else none
  asArray _ := none
  document_of_fromStr := by
    intro text v isRead
    split at isRead
    next isObject =>
      cases isRead
      rcases isObject with rfl | rfl <;> rfl
    next =>
      split at isRead
      next isNumber =>
        cases isRead
        subst isNumber
        rfl
      next => cases isRead
  document_toText := by rintro (_ | _) <;> rfl
  content_get := by
    rintro key (_ | _)
    · rfl
    · by_cases isA : key = "a".toList
      · subst isA
        rfl
      · have other : ([97] == key.map Char.toNat) = false := beq_false_of_ne fun same =>
          isA (List.map_injective_iff.mpr (fun _ _ => Char.toNat_inj.mp) same.symm)
        rw [if_neg fun isKey => isA isKey.2]
        simp [Json.field, other]
  content_asArray := by
    rintro (_ | _) <;> rfl

/-- A key that is there twice is stored once. -/
theorem repeated_key_lost :
    @pushJson sampleJson twiceText .mixed [] = [(onceText, .mixed)] ∧
      ∃ doc, sampleJson.document twiceText = some doc ∧ ¬@Faithful sampleJson [onceText] doc := by
  refine ⟨rfl, _, rfl, fun faithful => ?_⟩
  have same := Option.some.inj (List.cons.inj faithful).1
  have sizes := congrArg List.length (Json.object.inj same)
  revert sizes
  decide

end Eeemail.Structured
