import LogSequencing.Log.Directory
import LogSequencing.Proofs.Log.Entry

/-!
# Scans of a file

A scan goes over whole entries, one after another, and ends where no whole entry follows. `Scan.Whole`
says that octets are whole entries and which events they hold. Such octets can be put together
(`Whole.append`); a scan of them finds their events (`Whole.events_eq`), and whatever the octets of a
file are, those up to the end of the last whole entry are of this kind (`whole_readable`).
-/

set_option autoImplicit false
set_option relaxedAutoImplicit false

namespace LogSequencing

namespace Scan

variable (now : Instant)

/-! ### One entry of a scan -/

theorem frame?_of_length_lt {octets : Octets} (h : octets.length < 8) : frame? octets = none :=
  if_pos (Or.inl h)

theorem frame?_nil : frame? [] = none := frame?_of_length_lt (by decide)

theorem frame?_append {content rest : Octets} (hne : content ≠ [])
    (hmax : content.length ≤ Entry.maxLength) (hlong : 4 ≤ content.length + rest.length) :
    frame? (Octets.ofNatLE 4 content.length ++ (content ++ rest)) =
      some (content.length, content ++ rest) := by
  have hpos := List.length_pos_of_ne_nil hne
  have hsmall : content.length < 256 ^ 4 := Nat.lt_of_le_of_lt hmax (by decide)
  have htake : (Octets.ofNatLE 4 content.length ++ (content ++ rest)).take 4 =
      Octets.ofNatLE 4 content.length := List.take_left' (Octets.length_ofNatLE 4 _)
  have hdrop : (Octets.ofNatLE 4 content.length ++ (content ++ rest)).drop 4 = content ++ rest :=
    List.drop_left' (Octets.length_ofNatLE 4 _)
  unfold frame?
  simp only [htake, hdrop, Octets.toNatLE_ofNatLE_of_lt hsmall]
  refine if_neg ?_
  simp only [List.length_append, Octets.length_ofNatLE]
  omega

/-- A scan goes on only over a whole entry. -/
theorem exists_of_frame? {octets after : Octets} {length : Nat}
    (h : frame? octets = some (length, after)) :
    ∃ content rest : Octets, content ≠ [] ∧ content.length ≤ Entry.maxLength ∧
      content.length = length ∧ after = content ++ rest ∧
      octets = Octets.ofNatLE 4 content.length ++ (content ++ rest) := by
  simp only [frame?] at h
  split at h
  · contradiction
  rename_i hframe
  push Not at hframe
  obtain ⟨hlong, hpos, hmax, hend⟩ := hframe
  obtain ⟨rfl, rfl⟩ := Prod.mk.inj (Option.some.inj h)
  have hcontent : ((octets.drop 4).take (Octets.toNatLE (octets.take 4))).length =
      Octets.toNatLE (octets.take 4) := by
    rw [List.length_take, List.length_drop]
    omega
  have hhead : Octets.ofNatLE 4 (Octets.toNatLE (octets.take 4)) = octets.take 4 := by
    have hfour : (octets.take 4).length = 4 := by
      rw [List.length_take]
      omega
    have hback := Octets.ofNatLE_toNatLE (octets.take 4)
    rwa [hfour] at hback
  refine ⟨(octets.drop 4).take (Octets.toNatLE (octets.take 4)),
    (octets.drop 4).drop (Octets.toNatLE (octets.take 4)), ?_, ?_, hcontent, ?_, ?_⟩
  · intro hnil
    rw [hnil] at hcontent
    exact hpos hcontent.symm
  · rwa [hcontent]
  · rw [List.take_append_drop]
  · rw [hcontent, hhead, List.take_append_drop, List.take_append_drop]

/-- What follows an entry has no part in its event. -/
theorem decode_append (content rest : Octets) :
    (Entry.decode now (content ++ rest) content.length).toOption =
      (Entry.decode now content content.length).toOption := by
  by_cases hshort : content.length < 4
  · rw [Entry.decode, Entry.decode, if_pos (Or.inr hshort), if_pos (Or.inr hshort)]
    rfl
  · rw [Entry.decode_append_of_le now rest (Nat.le_of_not_lt hshort)]

/-- More fuel than octets makes no difference. -/
theorem ofOctetsWithin_eq {fuel : Nat} {octets : Octets} (h : octets.length ≤ fuel) :
    ofOctetsWithin now fuel octets = ofOctets now octets := by
  unfold ofOctets
  induction fuel using Nat.strong_induction_on generalizing octets with
  | _ fuel ih =>
    rcases fuel with _ | fuel
    · rw [Nat.le_zero.mp h]
    · rcases hlength : octets.length with _ | length
      · rw [List.length_eq_zero_iff.mp hlength]
        rfl
      · rw [ofOctetsWithin, ofOctetsWithin]
        split
        · rfl
        · rename_i size after hframe
          have hless := length_drop_lt_of_frame? hframe
          rw [ih fuel (by omega) (by omega), ih length (by omega) (by omega)]

theorem ofOctets_of_frame?_eq_none {octets : Octets} (h : frame? octets = none) :
    ofOctets now octets = ⟨[], 0⟩ := by
  rw [← ofOctetsWithin_eq now (Nat.le_succ octets.length), ofOctetsWithin, h]

theorem ofOctets_append {content rest : Octets}
    (h : frame? (Octets.ofNatLE 4 content.length ++ (content ++ rest)) =
      some (content.length, content ++ rest)) :
    ofOctets now (Octets.ofNatLE 4 content.length ++ (content ++ rest)) =
      cons (Entry.decode now content content.length).toOption (4 + content.length)
        (ofOctets now rest) := by
  have hless := length_drop_lt_of_frame? h
  rw [← ofOctetsWithin_eq now (Nat.le_succ _), ofOctetsWithin, h]
  simp only [decode_append, List.drop_left]
  rw [List.drop_left] at hless
  rw [ofOctetsWithin_eq now (Nat.le_of_lt hless)]

/-- A scan ends at once, or goes over one whole entry and then over what follows it. -/
theorem induction {motive : Octets → Prop}
    (ends : ∀ octets, frame? octets = none → motive octets)
    (goesOn : ∀ content rest : Octets, content ≠ [] → content.length ≤ Entry.maxLength →
      frame? (Octets.ofNatLE 4 content.length ++ (content ++ rest)) =
        some (content.length, content ++ rest) →
      motive rest → motive (Octets.ofNatLE 4 content.length ++ (content ++ rest)))
    (octets : Octets) : motive octets := by
  induction hlength : octets.length using Nat.strong_induction_on generalizing octets with
  | _ length ih =>
    cases hframe : frame? octets with
    | none => exact ends octets hframe
    | some found =>
      obtain ⟨size, after⟩ := found
      have hless := length_drop_lt_of_frame? hframe
      obtain ⟨content, rest, hne, hmax, rfl, rfl, rfl⟩ := exists_of_frame? hframe
      rw [List.drop_left] at hless
      exact goesOn content rest hne hmax hframe (ih rest.length (hlength ▸ hless) rest rfl)

/-! ### Whole entries -/

/-- Octets that are whole entries, and the events of those that can be decoded. -/
inductive Whole : Octets → List Event → Prop where
  | nil : Whole [] []
  | cons {content rest : Octets} {events : List Event} (hne : content ≠ [])
      (hmax : content.length ≤ Entry.maxLength) (hrest : Whole rest events) :
      Whole (Octets.ofNatLE 4 content.length ++ (content ++ rest))
        ((Entry.decode now content content.length).toOption.toList ++ events)

variable {now}

theorem Whole.append {first second : Octets} {events others : List Event}
    (hfirst : Whole now first events) (hsecond : Whole now second others) :
    Whole now (first ++ second) (events ++ others) := by
  induction hfirst with
  | nil => exact hsecond
  | cons hne hmax _ ih =>
    rw [List.append_assoc, List.append_assoc, List.append_assoc]
    exact Whole.cons hne hmax ih

/-- A scan finds the events of whole entries, whatever it is that it cannot go over behind them. It
stops before a last entry that is shorter than any that can be decoded. -/
theorem Whole.events_append {octets torn : Octets} {events : List Event} (h : Whole now octets events)
    (htorn : frame? torn = none) : (ofOctets now (octets ++ torn)).events = events := by
  induction h with
  | nil => rw [List.nil_append, ofOctets_of_frame?_eq_none now htorn]
  | @cons content rest events hne hmax hrest ih =>
    rw [List.append_assoc, List.append_assoc]
    by_cases hlong : 4 ≤ content.length + (rest ++ torn).length
    · rw [ofOctets_append now (frame?_append hne hmax hlong), Scan.cons, ih]
    · have hshort : (Octets.ofNatLE 4 content.length ++ (content ++ (rest ++ torn))).length < 8 := by
        rw [List.length_append, List.length_append, Octets.length_ofNatLE]
        omega
      have hnone : Entry.decode now content content.length = .error (.unexpectedEnd content.length) :=
        if_pos (Or.inr (by omega))
      rw [ofOctets_of_frame?_eq_none now (frame?_of_length_lt (by omega))] at ih
      rw [ofOctets_of_frame?_eq_none now (frame?_of_length_lt hshort), hnone, ← ih]
      rfl

theorem Whole.events_eq {octets : Octets} {events : List Event} (h : Whole now octets events) :
    (ofOctets now octets).events = events := by
  have htorn := h.events_append frame?_nil
  rwa [List.append_nil] at htorn

/-- What a scan goes over are whole entries. -/
theorem whole_readable (octets : Octets) :
    Whole now (octets.take (ofOctets now octets).readable) (ofOctets now octets).events := by
  induction octets using induction with
  | ends octets hframe =>
    rw [ofOctets_of_frame?_eq_none now hframe, List.take_zero]
    exact Whole.nil
  | goesOn content rest hne hmax hframe ih =>
    rw [ofOctets_append now hframe, cons]
    have htake : (Octets.ofNatLE 4 content.length ++ (content ++ rest)).take
        (4 + content.length + (ofOctets now rest).readable) =
        Octets.ofNatLE 4 content.length ++ (content ++ rest.take (ofOctets now rest).readable) := by
      rw [← List.append_assoc, ← List.append_assoc]
      have hfront : (Octets.ofNatLE 4 content.length ++ content).length = 4 + content.length := by
        rw [List.length_append, Octets.length_ofNatLE]
      rw [← hfront, List.take_length_add_append]
    rw [htake]
    exact Whole.cons hne hmax ih

theorem readable_le (octets : Octets) : (ofOctets now octets).readable ≤ octets.length := by
  induction octets using induction with
  | ends octets hframe =>
    rw [ofOctets_of_frame?_eq_none now hframe]
    exact Nat.zero_le _
  | goesOn content rest hne hmax hframe ih =>
    rw [ofOctets_append now hframe, cons]
    simp only [List.length_append, Octets.length_ofNatLE]
    omega

/-- The entry of an event is a whole one that can be decoded. -/
theorem whole_encode {event : Event} {entry : Octets} (htime : event.time.IsValid)
    (hcounted : event.IsCounted) (h : Entry.encode event = .ok entry) :
    Whole now entry [event.kept now] := by
  obtain ⟨rfl, hfits⟩ := Entry.eq_encoded hcounted h
  have hsmall : (Entry.content event).length < UInt32.size := Nat.lt_of_le_of_lt hfits (by decide)
  have hne : Entry.content event ≠ [] :=
    List.ne_nil_of_length_pos (Nat.lt_of_lt_of_le (by decide) (Entry.four_le_length_content event))
  have hwhole := Whole.cons hne hfits (Whole.nil : Whole now [] [])
  rwa [Entry.decode_content now htime hsmall, List.append_nil] at hwhole

/-- No scan goes over an entry that is not written to its end. -/
theorem frame?_take_eq_none {event : Event} {entry : Octets} (hcounted : event.IsCounted)
    (h : Entry.encode event = .ok entry) {stored : Nat} (hstored : stored < entry.length) :
    frame? (entry.take stored) = none := by
  obtain ⟨rfl, hfits⟩ := Entry.eq_encoded hcounted h
  have hlength : ((Entry.encoded event).take stored).length = stored :=
    List.length_take_of_le (Nat.le_of_lt hstored)
  by_cases hshort : stored < 8
  · exact frame?_of_length_lt (hlength.trans_lt hshort)
  · have hhead : ((Entry.encoded event).take stored).take 4 =
        Octets.ofNatLE 4 (Entry.content event).length := by
      rw [List.take_take, Nat.min_eq_left (by omega), Entry.take_encoded]
    have hend : (Entry.encoded event).length = 4 + (Entry.content event).length := by
      rw [Entry.encoded, List.length_append, Octets.length_ofNatLE]
    have hcount : (Octets.ofNatLE 4 (Entry.content event).length).toNatLE =
        (Entry.content event).length :=
      Octets.toNatLE_ofNatLE_of_lt (Nat.lt_of_le_of_lt hfits (by decide))
    unfold frame?
    simp only [hhead, hcount, hlength]
    exact if_pos (by omega)

/-! ### The time of the reader -/

theorem decodePayload_offset (now later : Instant) (payload : Octets) :
    (Entry.decodePayload now payload).toOption.map Event.offset =
      (Entry.decodePayload later payload).toOption.map Event.offset := by
  unfold Entry.decodePayload
  rcases (Entry.serialField payload 0 : Except LogError Offset) with _ | offset
  · rfl
  rcases (Entry.field payload 8 8).map Entry.toSigned with _ | milliseconds
  · rfl
  rcases (Entry.serialField payload 16 : Except LogError WorkspaceId) with _ | workspace
  · rfl
  rcases (Entry.serialField payload 24 : Except LogError Offset) with _ | workspaceOffset
  · rfl
  rcases (Entry.field payload 32 4).map Octets.toNatLE with _ | length
  · rfl
  simp only [bind, Except.bind]
  rcases Entry.field payload 36 length with _ | body
  · rfl
  simp only
  rcases (Json.Stored.decode? body : Option EntryBody) with _ | body <;> rfl

theorem decode_offset (now later : Instant) (octets : Octets) (length : Nat) :
    (Entry.decode now octets length).toOption.map Event.offset =
      (Entry.decode later octets length).toOption.map Event.offset := by
  unfold Entry.decode
  split
  · rfl
  simp only
  split
  · exact decodePayload_offset now later _
  · rfl

/-- Only the times of events depend on when a file is scanned. -/
theorem scan_offsets (now later : Instant) (octets : Octets) :
    (ofOctets now octets).readable = (ofOctets later octets).readable ∧
      (ofOctets now octets).events.map Event.offset =
        (ofOctets later octets).events.map Event.offset := by
  induction octets using induction with
  | ends octets hframe =>
    rw [ofOctets_of_frame?_eq_none now hframe, ofOctets_of_frame?_eq_none later hframe]
    exact ⟨rfl, rfl⟩
  | goesOn content rest hne hmax hframe ih =>
    rw [ofOctets_append now hframe, ofOctets_append later hframe]
    simp only [cons, List.map_append, ← Option.toList_map, ih.1, ih.2,
      decode_offset now later content content.length, and_self]

end Scan

end LogSequencing
