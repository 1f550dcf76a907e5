import StreamQuery.Value.Basic
namespace StreamQuery

/-! A record is a list of fields in the order of their keys, in which every key occurs once. Texts
are ordered by code points. -/

abbrev Record := List (String × Value)

namespace Record

def empty : Record := []

def get? : Record → String → Option Value
  | [], _ => none
  | (key, value) :: rest, wanted => if key = wanted then some value else get? rest wanted

def contains (record : Record) (key : String) : Bool :=
  (record.get? key).isSome

def insert : Record → String → Value → Record
  | [], key, value => [(key, value)]
  | (present, old) :: rest, key, value =>
      if key = present then (key, value) :: rest
      else if key < present then (key, value) :: (present, old) :: rest
      else (present, old) :: insert rest key value

def erase (record : Record) (key : String) : Record :=
  record.filter fun field => field.1 != key

theorem get?_insert (record : Record) (key : String) (value : Value) (wanted : String) :
    (record.insert key value).get? wanted =
      if key = wanted then some value else record.get? wanted := by
  induction record with
  | nil => rfl
  | cons field rest induction =>
      obtain ⟨present, old⟩ := field
      simp only [insert]
      split
      · next equal =>
          subst equal
          simp only [get?]
          split <;> rfl
      · split
        · simp only [get?]
        · next different _ =>
            simp only [get?, induction]
            split
            · next found =>
                subst found
                simp only [different, if_false]
            · rfl

/-- The fields of the second record replace those of the first that have the same key. -/
def merge (record other : Record) : Record :=
  other.foldr (fun (key, value) merged => merged.insert key value) record

theorem get?_merge (record other : Record) (key : String) :
    (record.merge other).get? key = (other.get? key).or (record.get? key) := by
  induction other with
  | nil => rfl
  | cons field rest induction =>
      simp only [merge] at induction
      simp only [merge, List.foldr_cons, get?_insert, induction, get?]
      split <;> rfl

def ofList (fields : List (String × Value)) : Record :=
  fields.foldl (fun record (key, value) => record.insert key value) empty

def keys (record : Record) : List String :=
  record.map (·.1)

def values (record : Record) : List Value :=
  record.map (·.2)

end Record

/-! A dotted path names a field, or a field of a record in a field. At every step a key that equals
the whole rest of the path goes before a shorter one. -/

namespace Path

def segments : List Char → List (List Char)
  | [] => [[]]
  | character :: rest =>
      match character, segments rest with
      | '.', pieces => [] :: pieces
      | _, piece :: pieces => (character :: piece) :: pieces
      | _, [] => [[character]]

theorem segments_ne_nil (characters : List Char) : segments characters ≠ [] := by
  cases characters with
  | nil => simp only [segments, ne_eq, List.cons_ne_self, not_false_eq_true]
  | cons character rest =>
      unfold segments
      split <;> simp only [ne_eq, reduceCtorEq, not_false_eq_true]

def join (pieces : List (List Char)) : String :=
  String.ofList (['.'].intercalate pieces)

theorem join_segments (characters : List Char) :
    join (segments characters) = String.ofList characters := by
  have joined : ['.'].intercalate (segments characters) = characters := by
    induction characters with
    | nil => rfl
    | cons character rest induction =>
        have present := segments_ne_nil rest
        unfold segments
        generalize segments rest = pieces at induction present ⊢
        match pieces, present with
        | piece :: others, _ =>
            split
            · simp only [List.intercalate_cons_cons, List.nil_append, induction,
                List.singleton_append]
            · next equal =>
                cases equal
                cases others with
                | nil =>
                    simp only [List.intercalate_singleton] at induction ⊢
                    rw [induction]
                | cons other others =>
                    simp only [List.intercalate_cons_cons, List.cons_append] at induction ⊢
                    rw [induction]
            · simp_all only [reduceCtorEq]
  rw [join, joined]

end Path

namespace Value

def field? (value : Value) (key : String) : Option Value :=
  value.toRecord?.bind fun record => Record.get? record key

def getSegments? : List (List Char) → Value → Option Value
  | [], _ => none
  | head :: rest, value =>
      match value.field? (Path.join (head :: rest)) with
      | some found => some found
      | none =>
          if rest.isEmpty then none
          else (value.field? (String.ofList head)).bind (getSegments? rest)

def getPath? (value : Value) (path : String) : Option Value :=
  getSegments? (Path.segments path.toList) value

end Value

end StreamQuery
