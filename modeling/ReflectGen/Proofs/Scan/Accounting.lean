import Mathlib.Data.Nat.Find
import ReflectGen.Proofs.Scan.Diagnostics

/-!
# No marker line disappears

Every marker line of a text that is read whole can be accounted for.  It is a line of one record; or
it has one diagnostic; or it belongs to a block that was discarded, and that block can be found
through a diagnostic on the line that opened it or on the line that closed it.  These are three
cases without overlap.

* `Source.InBlock`: the lines of a block in front of its end, and `Source.OpensAt.fate` for how a
  block ends.
* `Source.IsLineOf`: the lines of a record.
* `Scan.IsDiscarded`: the lines of a discarded block that have no diagnostic.
* `Scan.run_accounts_for_markers`: the three cases, and the balance of blocks.
-/

namespace ReflectGen

namespace Source

variable {tokens : Tokens} {lines : List Text} {b b' e k n : Nat} {p q : Text} {f : Fault}

/-! ## Blocks and their lines -/

/-- Line `b` opens a block of `parent`, and line `n` is that line or describes a member of the
block. -/
structure InBlock (tokens : Tokens) (lines : List Text) (b n : Nat) (parent : Text) : Prop where
  opens : OpensAt tokens lines b parent
  place : n = b ∨ Opened tokens lines b n parent ∧ DescribesAt tokens lines n parent

/-- A line is in one block only. -/
theorem InBlock.unique (h : InBlock tokens lines b n p) (h' : InBlock tokens lines b' n q) :
    b = b' ∧ p = q := by
  obtain ⟨hb, rfl | ⟨hopened, hd⟩⟩ := h
  · obtain ⟨hb', rfl | ⟨-, hd'⟩⟩ := h'
    · exact ⟨rfl, hb.parent_unique hb'⟩
    · exact absurd hd' hb.not_describesAt
  · obtain ⟨hb', rfl | ⟨hopened', -⟩⟩ := h'
    · exact absurd hd hb'.not_describesAt
    · exact hopened.unique hopened'

theorem InBlock.not_closesAt (h : InBlock tokens lines b n p) : ¬ ClosesAt tokens lines n q := by
  obtain ⟨hb, rfl | ⟨-, hd⟩⟩ := h
  · exact hb.not_closesAt
  · exact fun hc => hc.not_describesAt hd

/-- A line of a block that opens a block is the first one. -/
theorem InBlock.eq_of_opensAt (h : InBlock tokens lines b n p) (hn : OpensAt tokens lines n q) :
    n = b := by
  rcases h.place with rfl | ⟨-, hd⟩
  · rfl
  · exact absurd hd hn.not_describesAt

/-- A block goes on to the end of the text, or there is a first line behind it that opens or closes
a block. -/
theorem OpensAt.fate (h : OpensAt tokens lines b p) :
    IsPending tokens lines b p ∨
      ∃ e, Opened tokens lines b e p ∧ IsBoundary tokens lines e := by
  by_cases hex : ∃ e, b < e ∧ IsBoundary tokens lines e
  · classical
    obtain ⟨hlt, hend⟩ := Nat.find_spec hex
    exact .inr ⟨Nat.find hex, ⟨hlt, h, fun k hbk hk hkb => Nat.find_min hex hk ⟨hbk, hkb⟩⟩, hend⟩
  · exact .inl ⟨h, fun k hbk hkb => hex ⟨k, hbk, hkb⟩⟩

/-- A line in a block of its own type is where it belongs. -/
theorem Opened.not_misplaced (h : Opened tokens lines b k p) {outside : Fault} :
    ¬ Misplaced tokens lines k p outside f := by
  rintro (⟨hnone, -⟩ | ⟨b', p', h', hne, -⟩)
  · exact hnone b p h
  · exact hne (h'.unique h).2

/-! ## Lines of a record -/

/-- Line `n` opens the block of the record `r`, closes it, or describes one of its members. -/
def IsLineOf (tokens : Tokens) (lines : List Text) (r : TypeRecord) (n : Nat) : Prop :=
  ∃ b e parent, Encloses tokens lines b e parent ∧ r = recordBetween tokens lines b e parent ∧
    (n = b ∨ n = e ∨ ∃ m ∈ r.members, m.line = n)

theorem exists_mem_membersBetween_iff :
    (∃ m ∈ membersBetween tokens lines b e p, m.line = n) ↔
      b < n ∧ n < e ∧ DescribesAt tokens lines n p := by
  constructor
  · rintro ⟨member, hmem, hline⟩
    obtain ⟨k, hk, hat⟩ := List.mem_filterMap.mp hmem
    obtain ⟨m, v, name, hm, hd, rfl⟩ := memberAt?_eq_some_iff.mp hat
    obtain rfl : k = n := Int.ofNat.inj hline
    have hrange := List.mem_range'_1.mp hk
    exact ⟨by omega, by omega, m, hm, v, name, hd⟩
  · rintro ⟨hbn, hne, m, hm, v, name, hd⟩
    refine ⟨_, List.mem_filterMap.mpr ⟨n, List.mem_range'_1.mpr ⟨by omega, by omega⟩,
      memberAt?_eq_some_iff.mpr ⟨m, v, name, hm, hd, rfl⟩⟩, rfl⟩

/-- The lines of an enclosed block are its last line and the lines in the block before it. -/
theorem Encloses.line_iff (h : Encloses tokens lines b e p) :
    (n = b ∨ n = e ∨ ∃ m ∈ membersBetween tokens lines b e p, m.line = n) ↔
      n = e ∨ InBlock tokens lines b n p := by
  rw [exists_mem_membersBetween_iff]
  constructor
  · rintro (rfl | rfl | ⟨hbn, hne, hd⟩)
    · exact .inr ⟨h.opens, .inl rfl⟩
    · exact .inl rfl
    · exact .inr ⟨h.opens, .inr ⟨⟨hbn, h.opens, fun k hbk hkn => h.clear k hbk (by omega)⟩, hd⟩⟩
  · rintro (rfl | ⟨-, rfl | ⟨hopened, hd⟩⟩)
    · exact .inr (.inl rfl)
    · exact .inl rfl
    · refine .inr (.inr ⟨hopened.lt, ?_, hd⟩)
      -- the block ends on line `e`, so no line behind that one is in it
      rcases Nat.lt_trichotomy n e with hlt | rfl | hlt
      · exact hlt
      · exact absurd hd h.closes.not_describesAt
      · exact absurd ⟨p, .inr h.closes⟩ (hopened.clear e h.lt hlt)

theorem isLineOf_iff {r : TypeRecord} :
    IsLineOf tokens lines r n ↔
      ∃ b e p, Encloses tokens lines b e p ∧ r = recordBetween tokens lines b e p ∧
        (n = e ∨ InBlock tokens lines b n p) := by
  constructor
  · rintro ⟨b, e, p, henc, rfl, hn⟩
    exact ⟨b, e, p, henc, rfl, henc.line_iff.mp hn⟩
  · rintro ⟨b, e, p, henc, rfl, hn⟩
    exact ⟨b, e, p, henc, rfl, henc.line_iff.mpr hn⟩

/-- A line is a line of one record only. -/
theorem IsLineOf.unique {r r' : TypeRecord} (h : IsLineOf tokens lines r n)
    (h' : IsLineOf tokens lines r' n) : r = r' := by
  obtain ⟨b, e, p, henc, rfl, hn⟩ := isLineOf_iff.mp h
  obtain ⟨b', e', p', henc', rfl, hn'⟩ := isLineOf_iff.mp h'
  have hopened := (encloses_iff_opened.mp henc).1
  have hopened' := (encloses_iff_opened.mp henc').1
  rcases hn with rfl | hn
  · rcases hn' with rfl | hn'
    · obtain ⟨rfl, rfl⟩ := hopened.unique hopened'
      rfl
    · exact absurd henc.closes hn'.not_closesAt
  · rcases hn' with rfl | hn'
    · exact absurd henc'.closes hn.not_closesAt
    · obtain ⟨rfl, rfl⟩ := hn.unique hn'
      rw [hopened.end_unique hopened' ⟨p, .inr henc.closes⟩ ⟨p, .inr henc'.closes⟩]

/-- The lines of a record have no diagnostics. -/
theorem Encloses.not_diagnosed (h : Encloses tokens lines b e p)
    (hn : n = e ∨ InBlock tokens lines b n p) : ¬ Diagnosed tokens lines n f := by
  have hopened := (encloses_iff_opened.mp h).1
  -- such a line that opens a block opens this one
  have hfirst : ∀ {q}, OpensAt tokens lines n q → n = b := by
    intro q hq
    rcases hn with rfl | hn
    · exact absurd h.closes hq.not_closesAt
    · exact hn.eq_of_opensAt hq
  rintro (⟨k, hk⟩ | ⟨-, p', hpending⟩)
  · rcases hk.cases with ⟨rfl, hno⟩ | ⟨-, p', q, hopened', hq⟩
    · rcases hn with rfl | ⟨hb, rfl | ⟨hin, m, hm, v, name, hd⟩⟩
      · obtain ⟨m, hm, hc⟩ := h.closes
        exact hopened.not_misplaced ((reportsAt_of_closes hm hc).mp hk).2
      · exact hno p hb
      · exact hin.not_misplaced ((reportsAt_of_describes hm hd).mp hk).2
    · obtain rfl := hfirst hopened'.opens
      obtain rfl := hopened'.end_unique hopened ⟨q, .inl hq⟩ ⟨p, .inr h.closes⟩
      exact hq.not_closesAt h.closes
  · obtain rfl := hfirst hpending.opens
    exact hpending.clear e h.lt ⟨p, .inr h.closes⟩

/-! ## Discarded blocks -/

/-- By the faults that lines carry, the block of `parent` that line `b` opens has no record: that
line is reported as unterminated, or the line that closes the block as a mismatch. -/
def Lost (tokens : Tokens) (lines : List Text) (carries : Nat → Fault → Prop) (b : Nat)
    (parent : Text) : Prop :=
  carries b .unterminatedBlock ∨
    ∃ e q, Opened tokens lines b e parent ∧ ClosesAt tokens lines e q ∧ carries e .parentMismatch

/-- A block has a record or is lost. -/
theorem OpensAt.encloses_or_lost (h : OpensAt tokens lines b p) :
    (∃ e, Encloses tokens lines b e p) ∨ Lost tokens lines (Diagnosed tokens lines) b p := by
  rcases h.fate with hpending | ⟨e, hopened, q, ⟨m, hm, ho⟩ | ⟨m, hm, hc⟩⟩
  · exact .inr (.inl (.inr ⟨rfl, p, hpending⟩))
  · exact .inr (.inl (.inl ⟨e, (reportsAt_of_opens hm ho).mpr ⟨⟨p, hopened⟩, rfl⟩⟩))
  · by_cases hq : p = q
    · subst hq
      exact .inl ⟨e, encloses_iff_opened.mpr ⟨hopened, m, hm, hc⟩⟩
    · refine .inr (.inr ⟨e, q, hopened, ⟨m, hm, hc⟩, .inl ⟨e, (reportsAt_of_closes hm hc).mpr ?_⟩⟩)
      exact ⟨rfl, .inr ⟨b, p, hopened, hq, rfl⟩⟩

/-- A block with a record is not lost. -/
theorem Encloses.not_lost (h : Encloses tokens lines b e p) :
    ¬ Lost tokens lines (Diagnosed tokens lines) b p := by
  have hopened := (encloses_iff_opened.mp h).1
  rintro (hb | ⟨e', q, hopened', hc, he'⟩)
  · exact h.not_diagnosed (.inr ⟨h.opens, .inl rfl⟩) hb
  · obtain rfl := hopened'.end_unique hopened ⟨q, .inr hc⟩ ⟨p, .inr h.closes⟩
    exact h.not_diagnosed (.inl rfl) he'

/-- A line for the type `q` that is not misplaced is in a block of `q`. -/
theorem exists_opened_of_not_misplaced {outside : Fault}
    (h : ∀ f, ¬ Misplaced tokens lines k q outside f) : ∃ b, Opened tokens lines b k q := by
  by_cases hex : ∃ b p, Opened tokens lines b k p
  · obtain ⟨b, p, hopened⟩ := hex
    by_cases hp : p = q
    · exact ⟨b, hp ▸ hopened⟩
    · exact absurd (.inr ⟨b, p, hopened, hp, rfl⟩) (h .parentMismatch)
  · refine absurd (.inl ⟨fun b p hopened => hex ⟨b, p, hopened⟩, rfl⟩) (h outside)

/-- A marker line without a diagnostic ends an enclosed block or is in a block. -/
theorem exists_block_of_not_diagnosed {m : Marker} (hm : markerAt? tokens lines n = some m)
    (h : ∀ f, ¬ Diagnosed tokens lines n f) :
    (∃ b p, Encloses tokens lines b n p) ∨ ∃ b p, InBlock tokens lines b n p := by
  have hquiet : ∀ f, ¬ ReportsAt tokens lines n n f := fun f hf => h f (.inl ⟨n, hf⟩)
  rcases m.sense with ⟨q, ho⟩ | ⟨q, v, name, hd⟩ | ⟨q, hc⟩ | hbad
  · exact .inr ⟨n, q, ⟨m, hm, ho⟩, .inl rfl⟩
  · obtain ⟨b, hopened⟩ := exists_opened_of_not_misplaced fun f hf =>
      hquiet f ((reportsAt_of_describes hm hd).mpr ⟨rfl, hf⟩)
    exact .inr ⟨b, q, hopened.opens, .inr ⟨hopened, m, hm, v, name, hd⟩⟩
  · obtain ⟨b, hopened⟩ := exists_opened_of_not_misplaced fun f hf =>
      hquiet f ((reportsAt_of_closes hm hc).mpr ⟨rfl, hf⟩)
    exact .inl ⟨b, q, encloses_iff_opened.mpr ⟨hopened, m, hm, hc⟩⟩
  · exact absurd ((reportsAt_of_malformed hm hbad).mpr ⟨rfl, rfl⟩) (hquiet .malformedRecord)

end Source

namespace Scan

open Source

variable {tokens : Tokens} {lines : List Text} {ds : List Diagnostic} {n : Nat}

/-- Line `n` has no diagnostic, and it opens a block or describes a member of a block that was lost,
as the diagnostics say. -/
structure IsDiscarded (tokens : Tokens) (lines : List Text) (ds : List Diagnostic) (n : Nat) :
    Prop where
  undiagnosed : n ∉ ds.map Diagnostic.line
  block : ∃ b parent, InBlock tokens lines b n parent ∧ Lost tokens lines (Carries ds) b parent

theorem mem_map_line_iff : n ∈ ds.map Diagnostic.line ↔ ∃ f, Carries ds n f := by
  constructor
  · intro h
    obtain ⟨d, hd, hline⟩ := List.mem_map.mp h
    exact ⟨d.cause.fault, d, hd, hline, rfl⟩
  · rintro ⟨f, d, hd, hline, -⟩
    exact List.mem_map.mpr ⟨d, hd, hline⟩

/-- A marker line is a line of an enclosed block, or it has a diagnostic, or it is discarded, and
only one of these. -/
theorem marker_cases {m : Marker} (hds : ∀ n f, Carries ds n f ↔ Diagnosed tokens lines n f)
    (hm : markerAt? tokens lines n = some m) :
    (∃ r, IsLineOf tokens lines r n) ∧ n ∉ ds.map Diagnostic.line ∧
        ¬ IsDiscarded tokens lines ds n ∨
      (∀ r, ¬ IsLineOf tokens lines r n) ∧ n ∈ ds.map Diagnostic.line ∧
        ¬ IsDiscarded tokens lines ds n ∨
      (∀ r, ¬ IsLineOf tokens lines r n) ∧ n ∉ ds.map Diagnostic.line ∧
        IsDiscarded tokens lines ds n := by
  have hcarries : Carries ds = Diagnosed tokens lines :=
    funext fun n => funext fun f => propext (hds n f)
  have hmem : n ∈ ds.map Diagnostic.line ↔ ∃ f, Diagnosed tokens lines n f := by
    rw [mem_map_line_iff, hcarries]
  by_cases hdiag : ∃ f, Diagnosed tokens lines n f
  · refine .inr (.inl ⟨fun r hr => ?_, hmem.mpr hdiag, fun h => h.undiagnosed (hmem.mpr hdiag)⟩)
    obtain ⟨b, e, p, henc, -, hn⟩ := isLineOf_iff.mp hr
    obtain ⟨f, hf⟩ := hdiag
    exact henc.not_diagnosed hn hf
  · have hquiet : n ∉ ds.map Diagnostic.line := mt hmem.mp hdiag
    by_cases hlost : ∃ b p, InBlock tokens lines b n p ∧
        Lost tokens lines (Diagnosed tokens lines) b p
    · refine .inr (.inr ⟨fun r hr => ?_, hquiet, hquiet, hcarries ▸ hlost⟩)
      obtain ⟨b, p, hin, hb⟩ := hlost
      obtain ⟨b', e, p', henc, -, rfl | hin'⟩ := isLineOf_iff.mp hr
      · exact hin.not_closesAt henc.closes
      · obtain ⟨rfl, rfl⟩ := hin.unique hin'
        exact henc.not_lost hb
    · refine .inl ⟨?_, hquiet, fun h => hlost (hcarries ▸ h.block)⟩
      rcases exists_block_of_not_diagnosed hm fun f hf => hdiag ⟨f, hf⟩ with
        ⟨b, p, henc⟩ | ⟨b, p, hin⟩
      · exact ⟨_, isLineOf_iff.mpr ⟨b, n, p, henc, rfl, .inl rfl⟩⟩
      · rcases hin.opens.encloses_or_lost with ⟨e, henc⟩ | hb
        · exact ⟨_, isLineOf_iff.mpr ⟨b, e, p, henc, rfl, .inr hin⟩⟩
        · exact absurd ⟨b, p, hin, hb⟩ hlost

/-- The record of a line has one place among the records of a text. -/
theorem existsUnique_record (tokens : Tokens) (path : Text) {content : Text}
    (h : isComplete content = true) {r : TypeRecord}
    (hr : IsLineOf tokens (Source.lines content) r n) :
    ∃! i : Nat, ∃ r, (run tokens path content).records[i]? = some r ∧
      IsLineOf tokens (Source.lines content) r n := by
  have ht := tracks_states tokens path (Source.lines content)
  rw [records_run h]
  have hnodup : (states path (markers tokens (Source.lines content))).records.reverse.Nodup := by
    rw [List.nodup_reverse]
    refine ht.sorted.imp fun {r r'} hlt heq => ?_
    rw [heq] at hlt
    exact absurd hlt (Int.lt_irrefl _)
  have hmem : r ∈ (states path (markers tokens (Source.lines content))).records.reverse := by
    obtain ⟨b, e, p, henc, heq, -⟩ := hr
    exact List.mem_reverse.mpr ((ht.mem_records r).mpr ⟨b, e, p, henc, heq⟩)
  obtain ⟨i, hi⟩ := List.getElem?_of_mem hmem
  refine ⟨i, ⟨r, hi, hr⟩, ?_⟩
  rintro j ⟨r', hj, hr'⟩
  obtain rfl := hr.unique hr'
  have hlt : i < _ := (List.getElem?_eq_some_iff.mp hi).1
  exact ((List.getElem?_inj hlt hnodup).mp (hi.trans hj.symm)).symm

/-- **No marker line disappears.**  In a text without an over-long line, every marker line is in
exactly one of three cases: it is a line of exactly one record, and it has no diagnostic; or it has
exactly one diagnostic, and it is a line of no record; or it is a well-formed line of a discarded
block, without a diagnostic of its own.  No two diagnostics are on the same line, and all of them
are on marker lines.  There are as many well-formed opening markers as records, diagnostics for
blocks without an end, and mismatches on closing markers. -/
theorem run_accounts_for_markers (tokens : Tokens) (path content : Text)
    (h : ∀ line ∈ Source.lines content, line.length < maxLine) :
    let lines := Source.lines content
    let scan := run tokens path content
    let faulty := scan.diagnostics.map Diagnostic.line
    (∀ n m, markerAt? tokens lines n = some m →
      (∃! i : Nat, ∃ r, scan.records[i]? = some r ∧ IsLineOf tokens lines r n) ∧ n ∉ faulty ∧
          ¬ IsDiscarded tokens lines scan.diagnostics n ∨
        (∀ r ∈ scan.records, ¬ IsLineOf tokens lines r n) ∧ faulty.count n = 1 ∧
          ¬ IsDiscarded tokens lines scan.diagnostics n ∨
        (∀ r ∈ scan.records, ¬ IsLineOf tokens lines r n) ∧ n ∉ faulty ∧
          IsDiscarded tokens lines scan.diagnostics n) ∧
    faulty.Nodup ∧
    (∀ n ∈ faulty, ∃ m, markerAt? tokens lines n = some m) ∧
    (lines.filterMap fun line => Marker.classify tokens (stripReturns line)).countP
        (fun m => ∃ p, m.Opens p) =
      scan.records.length + scan.diagnostics.countP isUnterminated +
        scan.diagnostics.countP (isMismatchOn (isEnd tokens lines)) := by
  intro lines scan faulty
  have hcomplete := (isComplete_iff content).mpr h
  have hds : ∀ n f, Carries scan.diagnostics n f ↔ Diagnosed tokens lines n f :=
    carries_run_iff tokens path hcomplete
  have hnodup : faulty.Nodup := nodup_line_diagnostics_run tokens path hcomplete
  refine ⟨fun n m hm => ?_, hnodup, fun n hn => ?_, countP_opens_eq tokens path hcomplete⟩
  · rcases marker_cases hds hm with ⟨⟨r, hr⟩, hquiet, hkept⟩ | ⟨hno, hdiag, hkept⟩ |
      ⟨hno, hquiet, hlost⟩
    · exact .inl ⟨existsUnique_record tokens path hcomplete hr, hquiet, hkept⟩
    · exact .inr (.inl ⟨fun r _ => hno r, List.count_eq_one_of_mem hnodup hdiag, hkept⟩)
    · exact .inr (.inr ⟨fun r _ => hno r, hquiet, hlost⟩)
  · obtain ⟨f, hf⟩ := mem_map_line_iff.mp hn
    rcases (hds n f).mp hf with ⟨k, hk⟩ | ⟨-, p, hpending⟩
    · exact hk.exists_marker
    · obtain ⟨m, hm, -⟩ := hpending.opens
      exact ⟨m, hm⟩

/-- The opening markers of the faulty text are accounted for: two of its three blocks have a record,
and one is reported as unterminated. -/
theorem run_accounts_for_faultyText :
    (∀ line ∈ Source.lines faultyText, line.length < maxLine) ∧
      ((run letterTokens [] faultyText).diagnostics.map Diagnostic.line).Nodup ∧
      ((Source.lines faultyText).filterMap fun line =>
          Marker.classify letterTokens (stripReturns line)).countP (fun m => ∃ p, m.Opens p) =
        2 + 1 + 0 := by
  have h : ∀ line ∈ Source.lines faultyText, line.length < maxLine := by decide +kernel
  obtain ⟨-, hnodup, -, hcount⟩ := run_accounts_for_markers letterTokens [] faultyText h
  refine ⟨h, hnodup, hcount.trans ?_⟩
  decide +kernel

end Scan

end ReflectGen
