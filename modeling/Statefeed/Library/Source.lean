import Mathlib.Tactic.Common

set_option autoImplicit false

abbrev Source (α : Type) := List { chunk : List α // chunk ≠ [] }

namespace Source

variable {α : Type}

def remaining (source : Source α) : List α := source.flatMap Subtype.val

def read (most : Nat) : Source α → List α × Source α
  | [] => ([], [])
  | chunk :: rest =>
    if long : most < chunk.val.length then
      (chunk.val.take most, ⟨chunk.val.drop most, by simpa using long⟩ :: rest)
    else (chunk.val, rest)

def readExact : Nat → Source α → Option (List α) × Source α
  | 0, source => (some [], source)
  | _ + 1, [] => (none, [])
  | wanted + 1, chunk :: rest =>
    if long : wanted + 1 < chunk.val.length then
      (some (chunk.val.take (wanted + 1)),
        ⟨chunk.val.drop (wanted + 1), by simpa using long⟩ :: rest)
    else
      let (more, after) := readExact (wanted + 1 - chunk.val.length) rest
      (more.map (chunk.val ++ ·), after)

@[simp] theorem remaining_nil : remaining ([] : Source α) = [] := rfl

@[simp] theorem remaining_cons (chunk : { chunk : List α // chunk ≠ [] }) (rest : Source α) :
    remaining (chunk :: rest) = chunk.val ++ remaining rest := rfl

theorem remaining_eq_nil {source : Source α} : source.remaining = [] ↔ source = [] := by
  cases source with
  | nil => simp
  | cons chunk rest => simp [chunk.property]

theorem read_one {source : Source α} {first : α} {others : List α}
    (starts : source.remaining = first :: others) :
    (source.read 1).1 = [first] ∧ (source.read 1).2.remaining = others := by
  cases source with
  | nil => cases starts
  | cons chunk rest =>
    obtain ⟨items, nonempty⟩ := chunk
    cases items with
    | nil => exact absurd rfl nonempty
    | cons item items =>
      simp only [remaining_cons, List.cons_append, List.cons.injEq] at starts
      obtain ⟨rfl, rfl⟩ := starts
      -- The first chunk is used up or not.
      cases items with
      | nil => simp [read]
      | cons second items => simp [read]

theorem readExact_of_le {source : Source α} {wanted : Nat}
    (enough : wanted ≤ source.remaining.length) :
    (source.readExact wanted).1 = some (source.remaining.take wanted) ∧
      (source.readExact wanted).2.remaining = source.remaining.drop wanted := by
  induction source generalizing wanted with
  | nil =>
    cases wanted with
    | zero => simp [readExact]
    | succ wanted => simp at enough
  | cons chunk rest ih =>
    cases wanted with
    | zero => simp [readExact]
    | succ wanted =>
      rw [remaining_cons, List.length_append] at enough
      unfold readExact
      split
      · next long =>
        have within : wanted + 1 ≤ chunk.val.length := Nat.le_of_lt long
        simp [List.take_append_of_le_length within, List.drop_append_of_le_length within]
      · next short =>
        have within := Nat.not_lt.mp short
        obtain ⟨taken, left⟩ := @ih (wanted + 1 - chunk.val.length) (by omega)
        simp only [taken, left, remaining_cons, Option.map_some]
        rw [List.take_append, List.take_of_length_le within, List.drop_append,
          List.drop_of_length_le within]
        simp

theorem readExact_of_lt {source : Source α} {wanted : Nat}
    (short : source.remaining.length < wanted) :
    (source.readExact wanted).1 = none ∧ (source.readExact wanted).2.remaining = [] := by
  induction source generalizing wanted with
  | nil =>
    cases wanted with
    | zero => simp at short
    | succ wanted => simp [readExact]
  | cons chunk rest ih =>
    cases wanted with
    | zero => simp at short
    | succ wanted =>
      rw [remaining_cons, List.length_append] at short
      unfold readExact
      split
      · omega
      · obtain ⟨failed, left⟩ := @ih (wanted + 1 - chunk.val.length) (by omega)
        simp [failed, left]

end Source
