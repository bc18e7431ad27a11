import LogSequencing.Proofs.Event.Json
import LogSequencing.Proofs.Text.Octets

/-!
# Entries read back

The content of an entry is read back as its event (`decode_content`), whose time is then cut to
milliseconds (`Event.kept`). Two things limit this: the length of an entry has 32 bits
(`Event.IsCounted`), and its time 64.
-/

set_option autoImplicit false
set_option relaxedAutoImplicit false

namespace LogSequencing

open Json

/-- A time of the calendar, which may lie in a leap second. -/
def Instant.IsValid (t : Instant) : Prop := t.isRepresentable ∧ t.nanoseconds < 2000000000

instance (t : Instant) : Decidable t.IsValid := inferInstanceAs (Decidable (_ ∧ _))

namespace Event

/-- What a log keeps of an event. Its time is cut to milliseconds; in the leap second after the last
representable instant it reads as `now`. -/
def kept (now : Instant) (event : Event) : Event :=
  { event with time := (Instant.ofMilliseconds? event.time.milliseconds).getD now }

theorem kept_eq_cutToMilliseconds (now : Instant) {event : Event}
    (h : (Instant.ofMilliseconds event.time.milliseconds).isRepresentable) :
    event.kept now = event.cutToMilliseconds := by
  unfold kept cutToMilliseconds Instant.ofMilliseconds?
  rw [if_pos h]
  rfl

/-- The length in an entry that may be written is that of its content. It is counted modulo 2³², so
only an event that is stored in 4 GiB or more could be an exception. -/
def IsCounted (event : Event) : Prop :=
  Entry.length event ≤ Entry.maxLength → Entry.length event = (Entry.content event).length

/-- What every event of a log fulfils: its time is one, and the length of its entry can be told. -/
def IsStorable (event : Event) : Prop := event.time.IsValid ∧ event.IsCounted

theorem isCounted_of_lt {event : Event} (h : (Entry.content event).length < UInt32.size) :
    event.IsCounted := by
  intro _
  exact Nat.mod_eq_of_lt h

end Event

namespace Entry

theorem toSigned_ofSigned {n : Int} (hlow : -UInt64.size ≤ 2 * n) (hhigh : 2 * n < UInt64.size) :
    toSigned (ofSigned n) = n := by
  have hsize : UInt64.size = 18446744073709551616 := rfl
  unfold toSigned ofSigned
  rw [hsize, Octets.toNatLE_ofNatLE_of_lt (by omega), Int.toNat_of_nonneg (by omega), Int.emod_bmod]
  apply Int.bmod_eq_of_le <;> omega

theorem milliseconds_lt_of_isValid {t : Instant} (h : t.IsValid) :
    -UInt64.size ≤ 2 * t.milliseconds ∧ 2 * t.milliseconds < UInt64.size := by
  obtain ⟨hseconds, hnanoseconds⟩ := h
  rw [Instant.isRepresentable, Bool.and_eq_true, decide_eq_true_eq, decide_eq_true_eq] at hseconds
  obtain ⟨hfirst, hlast⟩ := hseconds
  have hlow : -8334601228800 ≤ t.seconds := hfirst
  have hhigh : t.seconds ≤ 8210266876799 := hlast
  have hsize : UInt64.size = 18446744073709551616 := rfl
  unfold Instant.milliseconds
  omega

/-! ### Fields -/

/-- The fields of a payload, of which all but the last have a fixed width. -/
def fields (event : Event) : List Octets :=
  [Octets.ofNatLE 8 event.offset.val.toNat, ofSigned event.time.milliseconds,
    Octets.ofNatLE 8 event.workspace.val.toNat, Octets.ofNatLE 8 event.workspaceOffset.val.toNat,
    Octets.ofNatLE 4 (body event).length, body event]

theorem flatten_fields (event : Event) : (fields event).flatten = payload event := by
  simp only [fields, payload, List.flatten_cons, List.flatten_nil, List.append_nil,
    List.append_assoc]

theorem length_payload (event : Event) : (payload event).length = 36 + (body event).length := by
  simp only [payload, ofSigned, List.length_append, Octets.length_ofNatLE]

theorem length_content (event : Event) : (content event).length = 40 + (body event).length := by
  simp only [content, List.length_append, Octets.length_ofNatLE, length_payload]
  omega

theorem field_flatten {parts : List Octets} {i position width : Nat} (hi : i < parts.length)
    (hposition : (parts.take i).flatten.length = position) (hwidth : parts[i].length = width) :
    field parts.flatten position width = .ok parts[i] := by
  have hsplit : parts.flatten = (parts.take i).flatten ++ (parts[i] ++ (parts.drop (i + 1)).flatten) := by
    rw [← List.flatten_cons, ← List.flatten_append, List.getElem_cons_drop, List.take_append_drop]
  subst hposition hwidth
  unfold field
  rw [hsplit, if_pos (by simp only [List.length_append]; omega), List.drop_left, List.take_left]

theorem serialField_flatten {space : Space} {n : Serial space} {parts : List Octets}
    {i position : Nat} (hi : i < parts.length)
    (hposition : (parts.take i).flatten.length = position)
    (hpart : parts[i] = Octets.ofNatLE 8 n.val.toNat) :
    serialField parts.flatten position = .ok n := by
  unfold serialField
  rw [field_flatten hi hposition (by rw [hpart, Octets.length_ofNatLE]), hpart]
  change Except.ok (Serial.mk (UInt64.ofNat (Octets.toNatLE _))) = _
  rw [Octets.toNatLE_ofNatLE_of_lt n.val.toNat_lt, UInt64.ofNat_toNat]

theorem decodePayload_payload (now : Instant) {event : Event} (htime : event.time.IsValid)
    (hlength : (content event).length < UInt32.size) :
    decodePayload now (payload event) = .ok (event.kept now) := by
  have hcount : Octets.toNatLE (Octets.ofNatLE 4 (body event).length) = (body event).length := by
    rw [length_content] at hlength
    exact Octets.toNatLE_ofNatLE_of_lt (Nat.lt_of_le_of_lt (Nat.le_add_left _ 40) hlength)
  obtain ⟨hlow, hhigh⟩ := milliseconds_lt_of_isValid htime
  have hoffset : serialField (payload event) 0 = .ok event.offset := by
    rw [← flatten_fields]
    exact serialField_flatten (i := 0) (by simp [fields]) (by simp [fields, ofSigned]) rfl
  have hmilliseconds : field (payload event) 8 8 = .ok (ofSigned event.time.milliseconds) := by
    rw [← flatten_fields]
    exact field_flatten (i := 1) (by simp [fields]) (by simp [fields, ofSigned])
      (Octets.length_ofNatLE 8 _)
  have hworkspace : serialField (payload event) 16 = .ok event.workspace := by
    rw [← flatten_fields]
    exact serialField_flatten (i := 2) (by simp [fields]) (by simp [fields, ofSigned]) rfl
  have hworkspaceOffset : serialField (payload event) 24 = .ok event.workspaceOffset := by
    rw [← flatten_fields]
    exact serialField_flatten (i := 3) (by simp [fields]) (by simp [fields, ofSigned]) rfl
  have hlengthField : field (payload event) 32 4 = .ok (Octets.ofNatLE 4 (body event).length) := by
    rw [← flatten_fields]
    exact field_flatten (i := 4) (by simp [fields]) (by simp [fields, ofSigned])
      (Octets.length_ofNatLE 4 _)
  have hbody : field (payload event) 36 (body event).length = .ok (body event) := by
    rw [← flatten_fields]
    exact field_flatten (i := 5) (by simp [fields]) (by simp [fields, ofSigned]) rfl
  have hdecode : Stored.decode? (body event) =
      some (⟨event.mutations, event.arguments⟩ : EntryBody) := Stored.decode?_encode _
  unfold decodePayload
  rw [hoffset, hmilliseconds, hworkspace, hworkspaceOffset, hlengthField]
  simp only [Except.map, bind, Except.bind, toSigned_ofSigned hlow hhigh, hcount, hbody, hdecode]
  rfl

/-! ### Checksums -/

/-- The checksum in front of a payload is right. -/
def IsSound (content : Octets) : Prop :=
  UInt32.ofNat (Octets.toNatLE (content.take 4)) = checksum (content.drop 4)

/-- What follows an entry has no part in it. -/
theorem decode_append_of_le (now : Instant) {content : Octets} (rest : Octets)
    (h : 4 ≤ content.length) :
    decode now (content ++ rest) content.length = decode now content content.length := by
  have hlong : ¬ ((content ++ rest).length < content.length ∨ content.length < 4) := by
    rw [List.length_append]
    omega
  have hself : ¬ (content.length < content.length ∨ content.length < 4) := by omega
  rw [decode, decode, if_neg hlong, if_neg hself, List.take_left, List.take_length]

theorem decode_of_isSound (now : Instant) {content : Octets} (hlong : 4 ≤ content.length)
    (h : IsSound content) :
    decode now content content.length = decodePayload now (content.drop 4) := by
  have hself : ¬ (content.length < content.length ∨ content.length < 4) := by omega
  rw [decode, if_neg hself, List.take_length]
  exact if_pos h

theorem decode_of_not_isSound (now : Instant) {content : Octets} (hlong : 4 ≤ content.length)
    (h : ¬ IsSound content) :
    decode now content content.length =
      .error (.checksumMismatch (claimedOffset (content.drop 4))
        (UInt32.ofNat (Octets.toNatLE (content.take 4))) (checksum (content.drop 4))) := by
  have hself : ¬ (content.length < content.length ∨ content.length < 4) := by omega
  rw [decode, if_neg hself, List.take_length]
  exact if_neg h

theorem drop_content (event : Event) : (content event).drop 4 = payload event :=
  List.drop_left' (Octets.length_ofNatLE 4 _)

theorem isSound_content (event : Event) : IsSound (content event) := by
  have hstored : (content event).take 4 = Octets.ofNatLE 4 (checksum (payload event)).toNat :=
    List.take_left' (Octets.length_ofNatLE 4 _)
  rw [IsSound, hstored, drop_content,
    Octets.toNatLE_ofNatLE_of_lt (checksum (payload event)).toNat_lt, UInt32.ofNat_toNat]

theorem four_le_length_content (event : Event) : 4 ≤ (content event).length := by
  rw [length_content]
  omega

theorem decode_content (now : Instant) {event : Event} (htime : event.time.IsValid)
    (hlength : (content event).length < UInt32.size) :
    decode now (content event) (content event).length = .ok (event.kept now) := by
  rw [decode_of_isSound now (four_le_length_content event) (isSound_content event), drop_content]
  exact decodePayload_payload now htime hlength

/-! ### Entries -/

/-- The entry of an event that is not too long. -/
def encoded (event : Event) : Octets :=
  Octets.ofNatLE 4 (content event).length ++ content event

theorem take_encoded (event : Event) :
    (encoded event).take 4 = Octets.ofNatLE 4 (content event).length :=
  List.take_left' (Octets.length_ofNatLE 4 _)

theorem drop_encoded (event : Event) : (encoded event).drop 4 = content event :=
  List.drop_left' (Octets.length_ofNatLE 4 _)

theorem encode_eq {event : Event} (hfits : (content event).length ≤ maxLength) :
    encode event = .ok (encoded event) := by
  have hlength : length event = (content event).length :=
    Nat.mod_eq_of_lt (Nat.lt_of_le_of_lt hfits (by decide))
  rw [encode, hlength, if_neg (Nat.not_lt.mpr hfits), encoded]

/-- Only an event that is not too long is encoded. -/
theorem eq_encoded {event : Event} {entry : Octets} (hcounted : event.IsCounted)
    (h : encode event = .ok entry) :
    entry = encoded event ∧ (content event).length ≤ maxLength := by
  unfold encode at h
  split at h
  · contradiction
  rename_i hfits
  have hlength := hcounted (Nat.le_of_not_lt hfits)
  rw [encoded, ← hlength]
  exact ⟨(Except.ok.inj h).symm, Nat.le_of_not_lt hfits⟩

end Entry

namespace Event

/-- An event that is about no record. -/
def blank (offset : UInt64) : Event := ⟨⟨offset⟩, .ofMilliseconds 0, ⟨1⟩, ⟨offset⟩, [], []⟩

theorem kept_blank (now : Instant) (offset : UInt64) : (blank offset).kept now = blank offset := by
  have htime : Instant.ofMilliseconds? (Instant.ofMilliseconds 0).milliseconds =
      some (.ofMilliseconds 0) := by decide
  unfold kept blank
  simp only [htime, Option.getD_some]

theorem length_content_blank (offset : UInt64) : (Entry.content (blank offset)).length = 68 := by
  have hbody : (Stored.encode (⟨[], []⟩ : EntryBody)).length = 28 := by decide +kernel
  rw [Entry.length_content]
  exact congrArg (40 + ·) hbody

theorem isStorable_blank (offset : UInt64) : (blank offset).IsStorable := by
  have htime : (Instant.ofMilliseconds 0).IsValid := by decide
  refine ⟨htime, isCounted_of_lt ?_⟩
  rw [length_content_blank]
  decide

end Event

end LogSequencing
