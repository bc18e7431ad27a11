import LogSequencing.Json.Record
import LogSequencing.Proofs.Json.Printing

/-!
# Records read back

What is stored as JSON is read back where it is printed plainly and its own value gives it back
(`LawfulStored`, `Stored.decode?_encode`). A record that is written with all of its fields in order
is read as these fields (`toFields?_ofMembers`).
-/

set_option autoImplicit false
set_option relaxedAutoImplicit false

namespace LogSequencing.Json

/-- What is printed plainly and is given back by its own value. -/
class LawfulStored (α : Type) [Stored α] : Prop where
  ofJson?_toJson : ∀ a : α, Stored.ofJson? (Stored.toJson a) = some a
  isPlain_toJson : ∀ a : α, (Stored.toJson a).IsPlain

namespace Stored

variable {α : Type} [Stored α] [LawfulStored α]

theorem decode?_encode (a : α) : decode? (encode a) = some a := by
  unfold decode? encode
  rw [Value.ofOctets?_print (LawfulStored.isPlain_toJson a)]
  exact LawfulStored.ofJson?_toJson a

theorem encode_injective : Function.Injective (encode (α := α)) := by
  intro a b hencode
  have hdecode := congrArg (decode? (α := α)) hencode
  rw [decode?_encode, decode?_encode] at hdecode
  exact Option.some.inj hdecode

theorem listOfJson?_listToJson (items : List α) : listOfJson? (listToJson items) = some items := by
  change (items.map toJson).mapM ofJson? = some items
  induction items with
  | nil => rfl
  | cons item items ih =>
    rw [List.map_cons, List.mapM_cons, LawfulStored.ofJson?_toJson, ih]
    rfl

theorem isPlain_listToJson (items : List α) : (listToJson items).IsPlain := by
  change Value.ArePlain (items.map toJson)
  induction items with
  | nil => trivial
  | cons item items ih => exact ⟨LawfulStored.isPlain_toJson item, ih⟩

end Stored

/-! ### Numbers and truth values -/

theorem toUInt64?_ofUInt64 (n : UInt64) : (Value.ofUInt64 n).toUInt64? = some n := by
  rw [Value.ofUInt64, Value.toUInt64?, Decimal.read_digits]
  rfl

instance : LawfulStored UInt64 where
  ofJson?_toJson := toUInt64?_ofUInt64
  isPlain_toJson n := ⟨n.toNat, rfl⟩

instance : LawfulStored Bool where
  ofJson?_toJson _ := rfl
  isPlain_toJson _ := trivial

/-! ### Records -/

instance (octet : UInt8) : Decidable (IsPlain octet) :=
  inferInstanceAs (Decidable (0x20 ≤ octet ∧ octet ≠ 0x22 ∧ octet ≠ 0x5c))

/-- A text that is stored as it stands and read back. -/
def IsName (name : String) : Prop :=
  text? ((Octets.ofText name).flatMap escape) = some name ∧
    ∀ octet ∈ (Octets.ofText name).flatMap escape, IsPlain octet

instance (name : String) : Decidable (IsName name) :=
  inferInstanceAs (Decidable (_ = _ ∧ ∀ octet ∈ _, IsPlain octet))

/-- Names that keep the fields of a record apart. -/
def AreNames (names : List String) : Prop := (∀ name ∈ names, IsName name) ∧ names.Nodup

instance (names : List String) : Decidable (AreNames names) :=
  inferInstanceAs (Decidable ((∀ name ∈ names, IsName name) ∧ names.Nodup))

/-- The place of a name among names of which none before it is the same. -/
theorem idxOf?_append_cons {before after : List String} {name : String} (hfresh : name ∉ before) :
    (before ++ name :: after).idxOf? name = some before.length := by
  rw [List.idxOf?_eq_some_iff]
  refine ⟨by simp, by simp, ?_⟩
  intro i hi heq
  rw [List.getElem_append_left hi] at heq
  exact hfresh (heq ▸ List.getElem_mem hi)

theorem placeField?_next {before : List String} (after : List String) {name : String}
    {values : List Value} (value : Value) (hlength : values.length = before.length) (hname : IsName name)
    (hfresh : name ∉ before) :
    placeField? (before ++ name :: after) (values.map some ++ none :: after.map fun _ ↦ none)
        ((Octets.ofText name).flatMap escape) value =
      some ((values ++ [value]).map some ++ after.map fun _ ↦ none) := by
  simp [placeField?, hname.1, idxOf?_append_cons hfresh, ← hlength]

/-- Members that hold the fields of a record in order are read as these fields. -/
theorem toFields?_ofMembers (members : List (String × Value))
    (hnames : AreNames (members.map Prod.fst)) :
    (Value.ofMembers members).toFields? (members.map Prod.fst) =
      some ((members.map Prod.snd).map some) := by
  -- The fields before the next member are filled and those from it on are free.
  have hfill : ∀ done rest, members = done ++ rest →
      (rest.map fun member ↦ ((Octets.ofText member.1).flatMap escape, member.2)).foldlM
          (fun fields member ↦ placeField? (members.map Prod.fst) fields member.1 member.2)
          ((done.map Prod.snd).map some ++ (rest.map Prod.fst).map fun _ ↦ none) =
        some ((members.map Prod.snd).map some) := by
    intro done rest hmembers
    induction rest generalizing done with
    | nil =>
      rw [hmembers, List.append_nil]
      exact congrArg some (List.append_nil _)
    | cons member rest ih =>
      obtain ⟨name, value⟩ := member
      have hsplit : members.map Prod.fst = done.map Prod.fst ++ name :: rest.map Prod.fst := by
        rw [hmembers, List.map_append, List.map_cons]
      have hnew : name ∉ done.map Prod.fst := by
        intro hmem
        have hfresh := hnames.2
        rw [hsplit, List.nodup_append] at hfresh
        exact hfresh.2.2 name hmem name List.mem_cons_self rfl
      have hname : IsName name := hnames.1 name (by rw [hsplit]; simp)
      have hlength : (done.map Prod.snd).length = (done.map Prod.fst).length := by simp
      have hstep := placeField?_next (rest.map Prod.fst) value hlength hname hnew
      have hrest := ih (done ++ [(name, value)]) (by simp [hmembers])
      rw [← hsplit] at hstep
      rw [List.map_cons, List.map_cons, List.map_cons, List.foldlM_cons, hstep]
      rw [List.map_append] at hrest
      exact hrest
  exact hfill [] members rfl

theorem isPlain_ofMembers {members : List (String × Value)}
    (hnames : ∀ name ∈ members.map Prod.fst, IsName name)
    (hvalues : ∀ value ∈ members.map Prod.snd, value.IsPlain) :
    (Value.ofMembers members).IsPlain := by
  change Value.MembersArePlain
    (members.map fun member ↦ ((Octets.ofText member.1).flatMap escape, member.2))
  induction members with
  | nil => trivial
  | cons member members ih =>
    refine ⟨(hnames member.1 (by simp)).2, hvalues member.2 (by simp), ih ?_ ?_⟩
    · exact fun name hname ↦ hnames name (List.mem_cons_of_mem _ hname)
    · exact fun value hvalue ↦ hvalues value (List.mem_cons_of_mem _ hvalue)

end LogSequencing.Json
