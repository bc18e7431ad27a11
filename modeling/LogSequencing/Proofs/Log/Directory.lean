import LogSequencing.Proofs.Log.Scan
import LogSequencing.Proofs.Log.Segment
import LogSequencing.Proofs.Maps
import LogSequencing.Proofs.Serial
import LogSequencing.Proofs.Sorting

/-!
# The files of a log

`Directory.Holds` says which files a directory holds as segments, in the order of their start offsets.
Writing a file changes nothing else (`Holds.insert`). Where the events of every file lie between its
start and that of the next one, in order (`Ordered`), a read finds the events from an offset on, up to
its limit (`readEvents_eq`): those of the segments it skips all lie before the offset.
-/

set_option autoImplicit false
set_option relaxedAutoImplicit false

namespace LogSequencing

/-- A file of a log: the start offset that it is named for, and its octets. -/
structure LogFile where
  start : Offset
  octets : Octets
deriving DecidableEq

namespace LogFile

def segment (file : LogFile) : Segment :=
  ⟨Segment.fileName file.start, file.start, file.octets.length⟩

/-- The events that a scan of a file finds. -/
def events (now : Instant) (file : LogFile) : List Event := (Scan.ofOctets now file.octets).events

end LogFile

/-- The events of files, one file after another. -/
def eventsOf (now : Instant) (files : List LogFile) : List Event := files.flatMap (·.events now)

namespace Directory

/-- Every name of a segment is spelled as a new segment's would be, and is the name of a file. -/
def IsCanonical (directory : Directory) : Prop :=
  ∀ name node start, directory[name]? = some node → Segment.ofFileName? name = some start →
    name = Segment.fileName start ∧ ∃ octets, node = .file octets

/-- The segments of a directory are these files. Whatever else it holds is no segment. -/
structure Holds (directory : Directory) (files : List LogFile) : Prop where
  ascending : files.Pairwise fun file later ↦ file.start < later.start
  mem_iff : ∀ file, file ∈ files ↔
    directory[Segment.fileName file.start]? = some (.file file.octets)
  canonical : directory.IsCanonical

variable {directory : Directory} {files : List LogFile}

theorem holds_empty : (∅ : Directory).Holds [] := by
  refine ⟨List.Pairwise.nil, fun file ↦ ?_, fun name node start hnode ↦ ?_⟩
  · rw [Std.ExtTreeMap.getElem?_empty]
    exact ⟨fun h ↦ absurd h List.not_mem_nil, fun h ↦ nomatch h⟩
  · rw [Std.ExtTreeMap.getElem?_empty] at hnode
    contradiction

/-! ### Segments -/

theorem Holds.contents_eq (h : directory.Holds files) {file : LogFile} (hfile : file ∈ files) :
    directory.fileOctets (Segment.fileName file.start) = .ok file.octets := by
  unfold fileOctets contents
  rw [(h.mem_iff file).mp hfile]
  rfl

theorem mem_segments_iff (directory : Directory) (segment : Segment) :
    segment ∈ directory.segments ↔ ∃ node, directory[segment.name]? = some node ∧
      Segment.ofFileName? segment.name = some segment.start ∧ node.size = segment.size := by
  unfold segments
  rw [(perm_sortOn Segment.start _).mem_iff, List.mem_filterMap]
  constructor
  · rintro ⟨⟨name, node⟩, hmem, hsegment⟩
    obtain ⟨start, hstart, rfl⟩ := Option.map_eq_some_iff.mp hsegment
    exact ⟨node, Std.ExtTreeMap.mem_toList_iff_getElem?_eq_some.mp hmem, hstart, rfl⟩
  · rintro ⟨node, hnode, hstart, hsize⟩
    refine ⟨(segment.name, node), Std.ExtTreeMap.mem_toList_iff_getElem?_eq_some.mpr hnode, ?_⟩
    simp only [hstart, Option.map_some, hsize]

theorem nodup_segments (directory : Directory) : directory.segments.Nodup := by
  refine ((perm_sortOn Segment.start _).nodup_iff).mpr ?_
  refine List.Pairwise.filterMap _ ?_ Std.ExtTreeMap.distinct_keys_toList
  rintro ⟨name, node⟩ ⟨name', node'⟩ hne segment hsegment segment' hsegment' rfl
  obtain ⟨start, -, rfl⟩ := Option.map_eq_some_iff.mp hsegment
  obtain ⟨start', -, heq⟩ := Option.map_eq_some_iff.mp hsegment'
  obtain rfl : name' = name := congrArg Segment.name heq
  exact hne Std.ReflOrd.compare_self

theorem Holds.mem_segments_iff (h : directory.Holds files) (segment : Segment) :
    segment ∈ directory.segments ↔ segment ∈ files.map LogFile.segment := by
  rw [Directory.mem_segments_iff, List.mem_map]
  constructor
  · rintro ⟨node, hnode, hstart, hsize⟩
    obtain ⟨hname, octets, rfl⟩ := h.canonical _ _ _ hnode hstart
    refine ⟨⟨segment.start, octets⟩, (h.mem_iff _).mpr (hname ▸ hnode), ?_⟩
    exact Segment.mk.injEq .. ▸ ⟨hname.symm, rfl, hsize⟩
  · rintro ⟨file, hfile, rfl⟩
    exact ⟨.file file.octets, (h.mem_iff file).mp hfile, Segment.ofFileName?_fileName _, rfl⟩

theorem Holds.segments_eq (h : directory.Holds files) :
    directory.segments = files.map LogFile.segment := by
  have hascending : (files.map LogFile.segment).Pairwise fun segment later ↦
      ¬ later.start ≤ segment.start :=
    List.pairwise_map.mpr (h.ascending.imp Std.not_le.mpr)
  have hnodup : (files.map LogFile.segment).Nodup := by
    refine hascending.imp ?_
    rintro segment _ hlt rfl
    exact hlt (Std.le_refl _)
  have hperm : directory.segments.Perm (files.map LogFile.segment) :=
    (List.perm_ext_iff_of_nodup directory.nodup_segments hnodup).mpr h.mem_segments_iff
  exact sortOn_eq_of_perm Segment.start ((perm_sortOn Segment.start _).symm.trans hperm) hascending

/-- Segments whose names are spelled as new ones would be begin at different offsets. -/
theorem segments_ascending (h : ∀ name node start, directory[name]? = some node →
      Segment.ofFileName? name = some start → name = Segment.fileName start) :
    directory.segments.Pairwise fun segment later ↦ segment.start < later.start := by
  have hsorted : directory.segments.Pairwise fun segment later ↦ segment.start ≤ later.start :=
    pairwise_sortOn Segment.start _
  refine (hsorted.and directory.nodup_segments).imp_of_mem ?_
  rintro segment later hsegment hlater ⟨hle, hne⟩
  refine Std.lt_of_le_of_ne hle fun hstart ↦ hne ?_
  obtain ⟨node, hnode, hread, hsize⟩ := (directory.mem_segments_iff segment).mp hsegment
  obtain ⟨node', hnode', hread', hsize'⟩ := (directory.mem_segments_iff later).mp hlater
  have hname := h _ _ _ hnode hread
  have hname' := h _ _ _ hnode' hread'
  have hnames : segment.name = later.name := by rw [hname, hname', hstart]
  rw [hnames, hnode'] at hnode
  obtain rfl := Option.some.inj hnode
  exact Segment.mk.injEq .. ▸ ⟨hnames, hstart, hsize.symm.trans hsize'⟩

/-- A directory whose segments have canonical names holds some files. -/
theorem IsCanonical.exists_holds (h : directory.IsCanonical) : ∃ files, directory.Holds files := by
  let octetsOf (name : String) : Octets := (directory.fileOctets name).toOption.getD []
  have hread : ∀ name octets, directory[name]? = some (.file octets) → octetsOf name = octets := by
    intro name octets hname
    simp only [octetsOf, fileOctets, contents, hname]
    rfl
  refine ⟨directory.segments.map fun segment ↦ ⟨segment.start, octetsOf segment.name⟩, ?_, ?_, h⟩
  · exact List.pairwise_map.mpr
      (segments_ascending fun name node start hnode hstart ↦ (h name node start hnode hstart).1)
  · intro file
    rw [List.mem_map]
    constructor
    · rintro ⟨segment, hsegment, rfl⟩
      obtain ⟨node, hnode, hstart, -⟩ := (directory.mem_segments_iff segment).mp hsegment
      obtain ⟨hname, octets, rfl⟩ := h _ _ _ hnode hstart
      rw [← hname, hread _ _ hnode]
      exact hnode
    · intro hfile
      refine ⟨file.segment, (directory.mem_segments_iff _).mpr ?_, ?_⟩
      · exact ⟨_, hfile, Segment.ofFileName?_fileName _, rfl⟩
      · rw [LogFile.segment, hread _ _ hfile]

/-! ### Files written -/

/-- Writes one file and leaves the others alone. -/
theorem Holds.insert (h : directory.Holds files) (file : LogFile) {written : List LogFile}
    (hascending : written.Pairwise fun file later ↦ file.start < later.start)
    (hwritten : ∀ other, other ∈ written ↔
      other = file ∨ other.start ≠ file.start ∧ other ∈ files) :
    Directory.Holds (directory.insert (Segment.fileName file.start) (.file file.octets)) written := by
  refine ⟨hascending, ?_, ?_⟩
  · intro other
    rw [hwritten, getElem?_insert_eq_ite]
    by_cases hsame : other.start = file.start
    · rw [hsame, if_pos rfl]
      constructor
      · rintro (rfl | ⟨hne, -⟩)
        · rfl
        · exact absurd rfl hne
      · intro hoctets
        have heq := Node.file.inj (Option.some.inj hoctets)
        exact Or.inl (LogFile.mk.injEq .. ▸ ⟨hsame, heq.symm⟩)
    · rw [if_neg fun hname ↦ hsame (Segment.fileName_inj hname), ← h.mem_iff]
      constructor
      · rintro (rfl | ⟨-, hmem⟩)
        · exact absurd rfl hsame
        · exact hmem
      · intro hmem
        exact Or.inr ⟨hsame, hmem⟩
  · intro name node start hnode hstart
    rw [getElem?_insert_eq_ite] at hnode
    split at hnode
    · rename_i hname
      rw [hname, Segment.ofFileName?_fileName] at hstart
      obtain rfl := Option.some.inj hstart
      exact ⟨hname, file.octets, (Option.some.inj hnode).symm⟩
    · exact h.canonical name node start hnode hstart

theorem Holds.insert_last {front : List LogFile} {file : LogFile}
    (h : directory.Holds (front ++ [file])) (octets : Octets) :
    Directory.Holds (directory.insert (Segment.fileName file.start) (.file octets))
      (front ++ [⟨file.start, octets⟩]) := by
  have hascending := List.pairwise_append.mp h.ascending
  refine h.insert ⟨file.start, octets⟩ ?_ ?_
  · refine List.pairwise_append.mpr ⟨hascending.1, List.pairwise_singleton _ _, ?_⟩
    intro other hother later hlater
    rw [List.mem_singleton.mp hlater]
    exact hascending.2.2 other hother file List.mem_cons_self
  · intro other
    have hfront : other ∈ front → other.start ≠ file.start := by
      intro hother heq
      exact Std.lt_irrefl (heq ▸ hascending.2.2 other hother file List.mem_cons_self)
    rw [List.mem_append, List.mem_append, List.mem_singleton, List.mem_singleton]
    constructor
    · rintro (hother | rfl)
      · exact Or.inr ⟨hfront hother, Or.inl hother⟩
      · exact Or.inl rfl
    · rintro (rfl | ⟨hne, hother | rfl⟩)
      · exact Or.inr rfl
      · exact Or.inl hother
      · exact absurd rfl hne

theorem Holds.insert_next (h : directory.Holds files) (file : LogFile)
    (hlater : ∀ other ∈ files, other.start < file.start) :
    Directory.Holds (directory.insert (Segment.fileName file.start) (.file file.octets))
      (files ++ [file]) := by
  refine h.insert file ?_ ?_
  · refine List.pairwise_append.mpr ⟨h.ascending, List.pairwise_singleton _ _, ?_⟩
    intro other hother last hlast
    rw [List.mem_singleton.mp hlast]
    exact hlater other hother
  · intro other
    rw [List.mem_append, List.mem_singleton]
    constructor
    · rintro (hother | rfl)
      · exact Or.inr ⟨fun heq ↦ Std.lt_irrefl (heq ▸ hlater other hother), hother⟩
      · exact Or.inl rfl
    · rintro (rfl | ⟨-, hother⟩)
      · exact Or.inr rfl
      · exact Or.inl hother

end Directory

/-! ### Events in order -/

/-- The events of every file are in order, from its start on and before the start of each later file. -/
structure Ordered (now : Instant) (files : List LogFile) : Prop where
  inside : ∀ file ∈ files, ((file.events now).Pairwise fun event later ↦ event.offset ≤ later.offset) ∧
    ∀ event ∈ file.events now, file.start ≤ event.offset
  before : files.Pairwise fun file later ↦ ∀ event ∈ file.events now, event.offset < later.start

theorem Ordered.pairwise_eventsOf {now : Instant} {files : List LogFile} (h : Ordered now files) :
    (eventsOf now files).Pairwise fun event later ↦ event.offset ≤ later.offset := by
  refine List.pairwise_flatMap.mpr ⟨fun file hfile ↦ (h.inside file hfile).1, ?_⟩
  refine h.before.imp_of_mem ?_
  intro file later _ hlater hbefore event hevent other hother
  exact Std.le_trans (Std.le_of_lt (hbefore event hevent)) ((h.inside later hlater).2 other hother)

theorem ordered_nil (now : Instant) : Ordered now [] :=
  ⟨fun _ hfile ↦ absurd hfile List.not_mem_nil, List.Pairwise.nil⟩

theorem ordered_append_singleton {now : Instant} {front : List LogFile} {file : LogFile} :
    Ordered now (front ++ [file]) ↔ Ordered now front ∧
      ((file.events now).Pairwise fun event later ↦ event.offset ≤ later.offset) ∧
      (∀ event ∈ file.events now, file.start ≤ event.offset) ∧
      ∀ event ∈ eventsOf now front, event.offset < file.start := by
  constructor
  · intro h
    obtain ⟨hfront, -, hlast⟩ := List.pairwise_append.mp h.before
    have hfile := h.inside file (List.mem_append_right front List.mem_cons_self)
    refine ⟨⟨fun other hother ↦ h.inside other (List.mem_append_left _ hother), hfront⟩,
      hfile.1, hfile.2, ?_⟩
    intro event hevent
    obtain ⟨other, hother, hevent⟩ := List.mem_flatMap.mp hevent
    exact hlast other hother file List.mem_cons_self event hevent
  · rintro ⟨hfront, hpairwise, hstart, hlast⟩
    refine ⟨?_, List.pairwise_append.mpr ⟨hfront.before, List.pairwise_singleton _ _, ?_⟩⟩
    · intro other hother
      rcases List.mem_append.mp hother with hother | hother
      · exact hfront.inside other hother
      · rw [List.mem_singleton.mp hother]
        exact ⟨hpairwise, hstart⟩
    · intro other hother later hlater event hevent
      rw [List.mem_singleton.mp hlater]
      exact hlast event (List.mem_flatMap.mpr ⟨other, hother, hevent⟩)

/-- A file in which nothing can be read may follow where the events before it allow it. -/
theorem Ordered.append_empty {now : Instant} {front : List LogFile} {file : LogFile}
    (h : Ordered now front) (hnothing : file.events now = [])
    (hbefore : ∀ event ∈ eventsOf now front, event.offset < file.start) :
    Ordered now (front ++ [file]) := by
  refine ordered_append_singleton.mpr ⟨h, ?_, ?_, hbefore⟩
  · rw [hnothing]
    exact List.Pairwise.nil
  · rw [hnothing]
    exact fun _ hevent ↦ absurd hevent List.not_mem_nil

/-- An event may follow in the last file where it belongs behind its start and all of its events. -/
theorem Ordered.append_event {now : Instant} {front : List LogFile} {file longer : LogFile}
    {event : Event} (h : Ordered now (front ++ [file])) (hstart : longer.start = file.start)
    (hevents : longer.events now = file.events now ++ [event]) (hinside : file.start ≤ event.offset)
    (hbefore : ∀ other ∈ file.events now, other.offset < event.offset) :
    Ordered now (front ++ [longer]) := by
  obtain ⟨hfront, hpairwise, hfile, hfrontBefore⟩ := ordered_append_singleton.mp h
  refine ordered_append_singleton.mpr ⟨hfront, ?_, ?_, hstart ▸ hfrontBefore⟩
  · rw [hevents]
    refine List.pairwise_append.mpr ⟨hpairwise, List.pairwise_singleton _ _, ?_⟩
    intro other hother last hlast
    rw [List.mem_singleton.mp hlast]
    exact Std.le_of_lt (hbefore other hother)
  · intro other hother
    rw [hevents] at hother
    rw [hstart]
    rcases List.mem_append.mp hother with hother | hother
    · exact hfile other hother
    · rw [List.mem_singleton.mp hother]
      exact hinside

/-! ### Reading -/

namespace ReadLimit

variable {α : Type} (limit : ReadLimit)

@[simp] theorem take_nil : limit.take ([] : List α) = [] := by
  cases limit with
  | toTheEnd => rfl
  | count n => exact List.take_nil

theorem take_sublist (items : List α) : (limit.take items).Sublist items := by
  cases limit with
  | toTheEnd => exact List.Sublist.refl _
  | count n => exact List.take_sublist n items

theorem take_take_append (items more : List α) :
    limit.take (limit.take items ++ more) = limit.take (items ++ more) := by
  cases limit with
  | toTheEnd => rfl
  | count n =>
    simp only [take, List.take_append, List.take_take, Nat.min_self, List.length_take]
    congr 2
    omega

/-- Nothing is taken of what follows once the limit is reached. -/
theorem take_append_of_isReached {items : List α} (more : List α)
    (h : limit.isReached (limit.take items).length = true) :
    limit.take (items ++ more) = limit.take items := by
  cases limit with
  | toTheEnd => contradiction
  | count n =>
    have hreached : n ≤ (items.take n).length := of_decide_eq_true h
    rw [List.length_take] at hreached
    exact List.take_append_of_le_length (by omega)

end ReadLimit

namespace Directory

variable {directory : Directory} {files : List LogFile} {now : Instant}

/-- Skipped segments and segments after the limit hold nothing that is wanted. -/
theorem collect_eq (start : Offset) (limit : ReadLimit) (found : List Event)
    (hfiles : ∀ file ∈ files, directory.fileOctets (Segment.fileName file.start) = .ok file.octets)
    (hordered : Ordered now files) :
    directory.collect now start limit (limit.take found) (files.map LogFile.segment) =
      .ok (limit.take (found ++ (eventsOf now files).filter (start ≤ ·.offset))) := by
  induction files generalizing found with
  | nil => simp [collect, eventsOf]
  | cons file rest ih =>
    obtain ⟨hbefore, hrest⟩ := List.pairwise_cons.mp hordered.before
    have horderedRest : Ordered now rest :=
      ⟨fun other hother ↦ hordered.inside other (List.mem_cons_of_mem _ hother), hrest⟩
    have hnext := fun found ↦
      ih found (fun other hother ↦ hfiles other (List.mem_cons_of_mem _ hother)) horderedRest
    have hevents : (eventsOf now (file :: rest)).filter (start ≤ ·.offset) =
        (file.events now).filter (start ≤ ·.offset) ++
          (eventsOf now rest).filter (start ≤ ·.offset) := by
      rw [eventsOf, List.flatMap_cons, List.filter_append]
      rfl
    rw [List.map_cons, collect, hevents]
    by_cases hskip : (rest.map LogFile.segment).head?.any (·.start ≤ start) = true
    · -- All events of the file lie before the start of the next one.
      have hnone : (file.events now).filter (start ≤ ·.offset) = [] := by
        cases rest with
        | nil => contradiction
        | cons later rest =>
          have hstart : later.start ≤ start := of_decide_eq_true hskip
          refine List.filter_eq_nil_iff.mpr fun event hevent hwanted ↦ ?_
          have hlt := hbefore later List.mem_cons_self event hevent
          exact Std.not_le.mpr hlt (Std.le_trans hstart (of_decide_eq_true hwanted))
      rw [if_pos hskip, hnext, hnone, List.nil_append]
    · have hscan : directory.scan now file.segment.name = .ok (Scan.ofOctets now file.octets) := by
        unfold scan
        rw [LogFile.segment, hfiles file List.mem_cons_self]
        rfl
      rw [if_neg hskip, hscan]
      simp only [bind, Except.bind, ReadLimit.take_take_append]
      rw [← List.append_assoc]
      by_cases hreached : limit.isReached
          (limit.take (found ++ (file.events now).filter (start ≤ ·.offset))).length = true
      · rw [ReadLimit.take_append_of_isReached limit _ hreached]
        exact if_pos hreached
      · rw [← hnext]
        exact if_neg hreached

/-- A read that skips no segment fails at one that cannot be scanned. -/
theorem collect_eq_error {start : Offset} {segments : List Segment} (found : List Event)
    (hascending : segments.Pairwise fun segment later ↦ segment.start < later.start)
    (hstart : ∀ segment ∈ segments, start ≤ segment.start)
    (hunreadable : ∃ segment ∈ segments, ∃ error,
      directory.scan now segment.name = .error error) :
    ∃ error, directory.collect now start .toTheEnd found segments = .error error := by
  induction segments generalizing found with
  | nil =>
    obtain ⟨_, hsegment, -⟩ := hunreadable
    exact absurd hsegment List.not_mem_nil
  | cons segment rest ih =>
    obtain ⟨hbefore, hrest⟩ := List.pairwise_cons.mp hascending
    have hkept : ¬ rest.head?.any (·.start ≤ start) = true := by
      cases rest with
      | nil => exact Bool.false_ne_true
      | cons later rest =>
        intro hskip
        have hlt := Std.lt_of_le_of_lt (hstart segment List.mem_cons_self)
          (hbefore later List.mem_cons_self)
        exact Std.not_le.mpr hlt (of_decide_eq_true hskip)
    rw [collect, if_neg hkept]
    cases hscan : directory.scan now segment.name with
    | error error => exact ⟨error, rfl⟩
    | ok scan =>
      obtain ⟨other, hother, error, herror⟩ := hunreadable
      rcases List.mem_cons.mp hother with rfl | hother
      · rw [hscan] at herror
        contradiction
      · exact ih _ hrest (fun later hlater ↦ hstart later (List.mem_cons_of_mem _ hlater))
          ⟨other, hother, error, herror⟩

/-- A read finds the events from an offset on, up to its limit. -/
theorem Holds.readEvents_eq (h : directory.Holds files) (hordered : Ordered now files)
    (start : Offset) (limit : ReadLimit) :
    directory.readEvents now start limit =
      .ok (limit.take ((eventsOf now files).filter (start ≤ ·.offset))) := by
  have hcollect := collect_eq start limit [] (fun _ hfile ↦ h.contents_eq hfile) hordered
  rw [ReadLimit.take_nil, List.nil_append] at hcollect
  unfold readEvents
  rw [h.segments_eq, hcollect]
  refine congrArg Except.ok (sortOn_of_pairwise Event.offset ?_)
  exact hordered.pairwise_eventsOf.sublist
    ((limit.take_sublist _).trans List.filter_sublist)

end Directory

end LogSequencing
