import Eeemail.Lib.Texts

/-! # Parameters of messages and chats

`param.rs` keeps them in one column of the database, a line `key=value` for
each; a line break in a value is written as two.  Every reader takes what it
cannot parse for no parameters at all. -/

set_option autoImplicit false

namespace Eeemail.Parameters

open Lib.Texts

def paramKeys : Text := "0123456789ABCDEFGHIJKLMNOPQRSTUVWXYabcdefghijklmnopqrstuvwxyz".toList

abbrev Param := { c : Char // c ∈ paramKeys }

abbrev Params := Param → Option Text

def entries (params : Params) : List (Param × Text) :=
  paramKeys.attach.filterMap fun key => (params key).map (key, ·)

def print (entry : Param × Text) : Text :=
  entry.1.1 :: '=' :: join ['\n', '\n'] (split '\n' entry.2)

def toText (params : Params) : Text := join ['\n'] ((entries params).map print)

/-- Only the first byte of a key counts, and a key that is not known is skipped. -/
def insert (params : Params) (key value : Text) : Params :=
  match key with
  | [] => params
  | c :: _ =>
    if known : c ∈ paramKeys then Function.update params ⟨c, known⟩ (some value) else params

def pairOf (line : Text) : Option (Text × Text) :=
  if '=' ∈ line then some (line.takeWhile (· ≠ '='), (line.dropWhile (· ≠ '=')).tail) else none

/-- The loop of `from_str` after the line of a pair: an empty line says that the next one goes on
with its value. -/
def parseFrom (params : Params) (key value : Text) : List Text → Option Params
  | [] => some (insert params key value)
  | [[]] => some (insert params key (value ++ ['\n']))
  | [] :: next :: rest => parseFrom params key (value ++ '\n' :: next) rest
  | line :: rest =>
    (pairOf line).bind fun pair => parseFrom (insert params key value) pair.1 pair.2 rest

def fromStr (s : Text) : Option Params :=
  match split '\n' s with
  | [] => some fun _ => none
  | line :: rest => (pairOf line).bind fun pair => parseFrom (fun _ => none) pair.1 pair.2 rest

/-! ## Reading back -/

theorem split_print (entry : Param × Text) (others : List (Param × Text)) :
    split '\n' (join ['\n'] ((entry :: others).map print)) =
      (entry :: others).flatMap fun entry => split '\n' (print entry) := by
  induction others generalizing entry with
  | nil => simp [join]
  | cons next others ih =>
    rw [List.map_cons, join_cons (by simp), List.append_assoc, List.singleton_append,
      split_append_cons, ih]
    rfl

theorem split_double {first : Text} {more : List Text}
    (plain : ∀ part ∈ first :: more, '\n' ∉ part) :
    split '\n' (join ['\n', '\n'] (first :: more)) = first :: more.flatMap ([[], ·]) := by
  induction more generalizing first with
  | nil => exact split_of_not_mem (plain first List.mem_cons_self)
  | cons next others ih =>
    rw [List.forall_mem_cons] at plain
    rw [join_cons (List.cons_ne_nil _ _), List.append_assoc]
    exact (split_append _ plain.1).trans (congrArg (first :: ·)
      ((split_append _ List.not_mem_nil).trans (congrArg ([] :: ·) (ih plain.2))))

theorem split_printEntry (entry : Param × Text) :
    ∃ (first : Text) (more : List Text), first ++ more.flatMap ('\n' :: ·) = entry.2 ∧
      split '\n' (print entry) = (entry.1.1 :: '=' :: first) :: more.flatMap ([[], ·]) := by
  cases parts : split '\n' entry.2 with
  | nil => exact absurd parts (split_ne_nil _ _)
  | cons first more =>
    refine ⟨first, more, by rw [← join_eq_append, ← parts, join_split], ?_⟩
    have plain : ∀ part ∈ first :: more, '\n' ∉ part :=
      fun part member => not_mem_of_mem_split (parts ▸ member)
    have notKey : '\n' ≠ entry.1.1 := fun same => absurd (same ▸ entry.1.2) (by decide)
    have whole : print entry = join ['\n', '\n'] ((entry.1.1 :: '=' :: first) :: more) := by
      rw [print, parts]
      cases more <;> rfl
    rw [whole, split_double]
    rw [List.forall_mem_cons] at plain ⊢
    exact ⟨by simp [notKey, plain.1], plain.2⟩

theorem parseFrom_more (params : Params) (key value : Text) (more rest : List Text) :
    parseFrom params key value (more.flatMap ([[], ·]) ++ rest) =
      parseFrom params key (value ++ more.flatMap ('\n' :: ·)) rest := by
  induction more generalizing value with
  | nil => simp
  | cons next others ih =>
    rw [List.flatMap_cons, List.append_assoc]
    exact (ih (value ++ '\n' :: next)).trans (by simp)

def insertEntry (params : Params) (entry : Param × Text) : Params :=
  insert params [entry.1.1] entry.2

theorem pairOf_eq (key : Param) (value : Text) :
    pairOf (key.1 :: '=' :: value) = some ([key.1], value) := by
  have notKey : key.1 ≠ '=' := fun same => absurd (same ▸ key.2) (by decide)
  simp [pairOf, notKey]

theorem parseFrom_entries (entries : List (Param × Text)) (params : Params) (key value : Text) :
    parseFrom params key value (entries.flatMap fun entry => split '\n' (print entry)) =
      some (entries.foldl insertEntry (insert params key value)) := by
  induction entries generalizing params key value with
  | nil => rfl
  | cons entry others ih =>
    obtain ⟨first, more, isValue, lines⟩ := split_printEntry entry
    simp only [List.flatMap_cons, lines, List.cons_append, parseFrom, pairOf_eq, Option.bind_some]
    rw [parseFrom_more, isValue, ih]
    rfl

theorem foldl_insertEntry (params start : Params) (keys : List Param) (key : Param) :
    (keys.filterMap fun key => (params key).map (key, ·)).foldl insertEntry start key =
      if key ∈ keys then (params key).or (start key) else start key := by
  induction keys generalizing start with
  | nil => rfl
  | cons next others ih =>
    cases isSet : params next with
    | none => grind
    | some value =>
      have update : insertEntry start (next, value) = Function.update start next (some value) :=
        dif_pos next.2
      rw [List.filterMap_cons, isSet, Option.map_some, List.foldl_cons, ih, update,
        Function.update_apply]
      grind

/-- Parameters are read back as they were written. -/
theorem read_back (params : Params) : (fromStr (toText params)).getD (fun _ => none) = params := by
  have whole : (entries params).foldl insertEntry (fun _ => none) = params := by
    funext key
    rw [entries, foldl_insertEntry, if_pos (List.mem_attach _ _), Option.or_none]
  rw [fromStr, toText]
  cases areEntries : entries params with
  | nil =>
    rw [areEntries] at whole
    exact whole
  | cons entry others =>
    obtain ⟨first, more, isValue, lines⟩ := split_printEntry entry
    rw [split_print, List.flatMap_cons, lines, List.cons_append]
    simp only [pairOf_eq, Option.bind_some]
    rw [parseFrom_more, isValue, parseFrom_entries, Option.getD_some]
    rw [areEntries] at whole
    exact whole

end Eeemail.Parameters
