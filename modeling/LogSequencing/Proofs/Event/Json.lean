import LogSequencing.Event.Json
import LogSequencing.Log.Entry
import LogSequencing.Proofs.Json.Record

/-!
# Mutations and arguments read back

The JSON of a mutation, of an argument and of the body of an entry is read as what was written.
-/

set_option autoImplicit false
set_option relaxedAutoImplicit false

namespace LogSequencing

open Json

instance {space : Space} : LawfulStored (Serial space) where
  ofJson?_toJson n := by
    change (Value.ofUInt64 n.val).toUInt64?.map Serial.mk = some n
    rw [toUInt64?_ofUInt64]
    rfl
  isPlain_toJson n := ⟨n.val.toNat, rfl⟩

theorem Category.isName_name (category : Category) : IsName category.name := by
  cases category <;> decide +kernel

instance : LawfulStored Category where
  ofJson?_toJson category := by
    change (text? ((Octets.ofText category.name).flatMap escape)).bind Category.ofName? = _
    rw [category.isName_name.1]
    exact Category.ofName?_name category
  isPlain_toJson category := category.isName_name.2

theorem Mutation.areNames : AreNames Mutation.fieldNames := by decide +kernel

instance : LawfulStored Mutation where
  ofJson?_toJson m := by
    have hfields : (Stored.toJson m).toFields? Mutation.fieldNames = _ :=
      toFields?_ofMembers [("id", Stored.toJson m.id),
        ("category", Stored.toJson m.category), ("is_new", Stored.toJson m.isNew)]
        Mutation.areNames
    change Mutation.ofJson? (Stored.toJson m) = some m
    unfold Mutation.ofJson?
    simp [hfields, required?, LawfulStored.ofJson?_toJson]
  isPlain_toJson m := by
    refine isPlain_ofMembers Mutation.areNames.1 ?_
    simp [LawfulStored.isPlain_toJson]

theorem Argument.areNames : AreNames Argument.fieldNames := by decide +kernel

instance : LawfulStored Argument where
  ofJson?_toJson a := by
    have hfields : (Stored.toJson a).toFields? Argument.fieldNames = _ :=
      toFields?_ofMembers [("id", Stored.toJson a.id),
        ("category", Stored.toJson a.category)] Argument.areNames
    change Argument.ofJson? (Stored.toJson a) = some a
    unfold Argument.ofJson?
    simp [hfields, required?, LawfulStored.ofJson?_toJson]
  isPlain_toJson a := by
    refine isPlain_ofMembers Argument.areNames.1 ?_
    simp [LawfulStored.isPlain_toJson]

theorem EntryBody.areNames : AreNames EntryBody.fieldNames := by decide +kernel

instance : LawfulStored EntryBody where
  ofJson?_toJson body := by
    have hfields : (Stored.toJson body).toFields? EntryBody.fieldNames = _ :=
      toFields?_ofMembers [("cuds", Stored.listToJson body.mutations),
        ("arg_objects", Stored.listToJson body.arguments)] EntryBody.areNames
    change EntryBody.ofJson? (Stored.toJson body) = some body
    unfold EntryBody.ofJson?
    simp [hfields, withDefault?, Stored.listOfJson?_listToJson]
  isPlain_toJson body := by
    refine isPlain_ofMembers EntryBody.areNames.1 ?_
    simp [Stored.isPlain_listToJson]

end LogSequencing
