import Mathlib.Data.List.Basic
import ReflectGen.Proofs.Scan.Basic

/-!
# The records of a text, said without a state

Which records a scan returns depends on the pending block, and that depends on all lines before.
Here they are read off the numbered lines alone.  Lines `b` and `e` *enclose* a block of a type if
the first opens it, the second closes it, and no line strictly between them opens or closes a block;
what else stands between them plays no part.  There is one record for each such pair, in the order
of the closing lines, and its members are the lines between them that describe a member of the type.
This holds for texts with any number of faults.

* `Source.markerAt?`, `Source.OpensAt`, `Source.ClosesAt`, `Source.Encloses`: lines and pairs of
  lines.
* `Source.membersBetween`: the members of a type between two lines.
* `Scan.Tracks`: what the state of a scan has to do with the lines read so far; one more line keeps
  it (`Scan.Tracks.concat`), so it holds behind all of them (`Scan.tracks_states`).
* `Scan.records_run_eq_enclosed`: the records of a text.
-/

namespace ReflectGen

namespace Source

/-! ## Numbered lines -/

/-- The marker on line `n`, counted from one, if that line is a marker line. -/
def markerAt? (tokens : Tokens) (lines : List Text) : Nat → Option Marker
  | 0 => none
  | n + 1 => lines[n]?.bind fun line => Marker.classify tokens (stripReturns line)

/-- Line `n` is a well-formed opening marker for `parent`. -/
def OpensAt (tokens : Tokens) (lines : List Text) (n : Nat) (parent : Text) : Prop :=
  ∃ m, markerAt? tokens lines n = some m ∧ m.Opens parent

/-- Line `n` is a well-formed closing marker for `parent`. -/
def ClosesAt (tokens : Tokens) (lines : List Text) (n : Nat) (parent : Text) : Prop :=
  ∃ m, markerAt? tokens lines n = some m ∧ m.Closes parent

/-- Line `n` is a well-formed opening or closing marker. -/
def IsBoundary (tokens : Tokens) (lines : List Text) (n : Nat) : Prop :=
  ∃ parent, OpensAt tokens lines n parent ∨ ClosesAt tokens lines n parent

/-- Lines `b` and `e` are the ends of a block of `parent`. -/
structure Encloses (tokens : Tokens) (lines : List Text) (b e : Nat) (parent : Text) : Prop where
  lt : b < e
  opens : OpensAt tokens lines b parent
  closes : ClosesAt tokens lines e parent
  clear : ∀ n, b < n → n < e → ¬ IsBoundary tokens lines n

/-- The member of `parent` that line `n` describes, if it is a well-formed member marker for that
type. -/
def memberAt? (tokens : Tokens) (lines : List Text) (parent : Text) (n : Nat) : Option Member :=
  match markerAt? tokens lines n with
  | some { kind := .member, args := [p, valueType, name], closed := true } =>
    if p = parent ∧ p ≠ [] ∧ valueType ≠ [] ∧ name ≠ [] then
      some { parent, valueType, name, line := n }
    else none
  | _ => none

/-- The members of `parent` that the lines strictly between `b` and `e` describe, in the order of
the lines. -/
def membersBetween (tokens : Tokens) (lines : List Text) (b e : Nat) (parent : Text) :
    List Member :=
  (List.range' (b + 1) (e - (b + 1))).filterMap (memberAt? tokens lines parent)

/-- The record of a block of `parent` with the ends `b` and `e`. -/
def recordBetween (tokens : Tokens) (lines : List Text) (b e : Nat) (parent : Text) :
    TypeRecord where
  name := parent
  line := e
  members := membersBetween tokens lines b e parent

/-- Line `b` opens a block of `parent`, and no line behind it opens or closes one. -/
structure IsPending (tokens : Tokens) (lines : List Text) (b : Nat) (parent : Text) : Prop where
  opens : OpensAt tokens lines b parent
  clear : ∀ n, b < n → ¬ IsBoundary tokens lines n

variable {tokens : Tokens} {lines : List Text} {parent : Text}

theorem memberAt?_eq_some_iff {n : Nat} {member : Member} :
    memberAt? tokens lines parent n = some member ↔
      ∃ m valueType name, markerAt? tokens lines n = some m ∧ m.Describes parent valueType name ∧
        member = { parent, valueType, name, line := n } := by
  constructor
  · intro h
    unfold memberAt? at h
    split at h
    · next p v name hm =>
      split at h
      · next hp =>
        obtain ⟨rfl, hp, hv, hn⟩ := hp
        exact ⟨_, v, name, hm, ⟨rfl, rfl, rfl, hp, hv, hn⟩, (Option.some.inj h).symm⟩
      · exact absurd h (by simp)
    · exact absurd h (by simp)
  · rintro ⟨⟨kind, args, closed⟩, v, name, hm, ⟨rfl, rfl, rfl, hp, hv, hn⟩, rfl⟩
    simp [memberAt?, hm, hp, hv, hn]

/-- A line that describes no member of `parent` adds none. -/
theorem memberAt?_eq_none {n : Nat}
    (h : ∀ m v name, markerAt? tokens lines n = some m → ¬ m.Describes parent v name) :
    memberAt? tokens lines parent n = none := by
  rw [Option.eq_none_iff_forall_ne_some]
  intro member hm
  obtain ⟨m, v, name, hat, hd, -⟩ := memberAt?_eq_some_iff.mp hm
  exact h m v name hat hd

/-! ## Lines read one after the other -/

theorem markerAt?_concat_of_le {n : Nat} (line : Text) (h : n ≤ lines.length) :
    markerAt? tokens (lines ++ [line]) n = markerAt? tokens lines n := by
  cases n with
  | zero => rfl
  | succ n => rw [markerAt?, markerAt?, List.getElem?_append_left h]

theorem markerAt?_concat_length (line : Text) :
    markerAt? tokens (lines ++ [line]) (lines.length + 1) =
      Marker.classify tokens (stripReturns line) := by
  simp [markerAt?]

theorem le_length_of_markerAt? {n : Nat} {m : Marker} (h : markerAt? tokens lines n = some m) :
    n ≤ lines.length := by
  cases n with
  | zero => exact Nat.zero_le _
  | succ n =>
    rw [markerAt?, Option.bind_eq_some_iff] at h
    obtain ⟨line, hline, -⟩ := h
    exact (List.getElem?_eq_some_iff.mp hline).1

theorem OpensAt.le_length {n : Nat} (h : OpensAt tokens lines n parent) : n ≤ lines.length := by
  obtain ⟨m, hm, -⟩ := h
  exact le_length_of_markerAt? hm

theorem IsBoundary.le_length {n : Nat} (h : IsBoundary tokens lines n) : n ≤ lines.length := by
  obtain ⟨p, ⟨m, hm, -⟩ | ⟨m, hm, -⟩⟩ := h
  · exact le_length_of_markerAt? hm
  · exact le_length_of_markerAt? hm

/-- One more line leaves the lines before it as they are. -/
theorem exists_markerAt?_concat (line : Text) {n : Nat} {q : Marker → Prop} :
    (∃ m, markerAt? tokens (lines ++ [line]) n = some m ∧ q m) ↔
      (∃ m, markerAt? tokens lines n = some m ∧ q m) ∨
        n = lines.length + 1 ∧ ∃ m, Marker.classify tokens (stripReturns line) = some m ∧ q m := by
  constructor
  · rintro ⟨m, hm, hq⟩
    have hn : n ≤ lines.length + 1 := by simpa using le_length_of_markerAt? hm
    rcases Nat.lt_or_eq_of_le hn with hlt | rfl
    · rw [markerAt?_concat_of_le line (by omega)] at hm
      exact .inl ⟨m, hm, hq⟩
    · rw [markerAt?_concat_length] at hm
      exact .inr ⟨rfl, m, hm, hq⟩
  · rintro (⟨m, hm, hq⟩ | ⟨rfl, m, hm, hq⟩)
    · exact ⟨m, (markerAt?_concat_of_le line (le_length_of_markerAt? hm)).trans hm, hq⟩
    · exact ⟨m, (markerAt?_concat_length line).trans hm, hq⟩

theorem isBoundary_concat (line : Text) {n : Nat} :
    IsBoundary tokens (lines ++ [line]) n ↔
      IsBoundary tokens lines n ∨ n = lines.length + 1 ∧
        ∃ m, Marker.classify tokens (stripReturns line) = some m ∧
          ∃ p, m.Opens p ∨ m.Closes p := by
  have key : ∀ ls, IsBoundary tokens ls n ↔
      ∃ m, markerAt? tokens ls n = some m ∧ ∃ p, m.Opens p ∨ m.Closes p := by
    intro ls
    constructor
    · rintro ⟨p, ⟨m, hm, ho⟩ | ⟨m, hm, hc⟩⟩
      · exact ⟨m, hm, p, .inl ho⟩
      · exact ⟨m, hm, p, .inr hc⟩
    · rintro ⟨m, hm, p, ho | hc⟩
      · exact ⟨p, .inl ⟨m, hm, ho⟩⟩
      · exact ⟨p, .inr ⟨m, hm, hc⟩⟩
  rw [key, key, exists_markerAt?_concat]

/-- One more line ends at most one block: the pending one, if it closes that. -/
theorem encloses_concat (line : Text) {b e : Nat} :
    Encloses tokens (lines ++ [line]) b e parent ↔
      Encloses tokens lines b e parent ∨
        e = lines.length + 1 ∧ IsPending tokens lines b parent ∧
          ∃ m, Marker.classify tokens (stripReturns line) = some m ∧ m.Closes parent := by
  constructor
  · rintro ⟨hlt, hopen, hclose, hclear⟩
    have hclear' : ∀ n, b < n → n < e → ¬ IsBoundary tokens lines n := fun n hb he hn =>
      hclear n hb he ((isBoundary_concat line).mpr (.inl hn))
    have hopen' : b ≤ lines.length → OpensAt tokens lines b parent := by
      intro hb
      rcases (exists_markerAt?_concat line).mp hopen with h | ⟨rfl, -⟩
      · exact h
      · omega
    rcases (exists_markerAt?_concat line).mp hclose with h | ⟨rfl, h⟩
    · have he : e ≤ lines.length := by
        obtain ⟨m, hm, -⟩ := h
        exact le_length_of_markerAt? hm
      exact .inl ⟨hlt, hopen' (by omega), h, hclear'⟩
    · refine .inr ⟨rfl, ⟨hopen' (by omega), fun n hb hn => ?_⟩, h⟩
      have hle := hn.le_length
      exact hclear' n hb (by omega) hn
  · rintro (⟨hlt, hopen, hclose, hclear⟩ | ⟨rfl, ⟨hopen, hclear⟩, hm⟩)
    · refine ⟨hlt, (exists_markerAt?_concat line).mpr (.inl hopen),
        (exists_markerAt?_concat line).mpr (.inl hclose), fun n hb he hn => ?_⟩
      rcases (isBoundary_concat line).mp hn with h | ⟨rfl, -⟩
      · exact hclear n hb he h
      · obtain ⟨m, hm, -⟩ := hclose
        have hle := le_length_of_markerAt? hm
        omega
    · have hb := hopen.le_length
      refine ⟨by omega, (exists_markerAt?_concat line).mpr (.inl hopen),
        (exists_markerAt?_concat line).mpr (.inr ⟨rfl, hm⟩), fun n hb he hn => ?_⟩
      rcases (isBoundary_concat line).mp hn with h | ⟨rfl, -⟩
      · exact hclear n hb h
      · omega

/-- A line that opens and closes nothing leaves the pending block as it is. -/
theorem isPending_concat_of_not_boundary {line : Text} {b : Nat}
    (h : ∀ m, Marker.classify tokens (stripReturns line) = some m →
      ∀ p, ¬ m.Opens p ∧ ¬ m.Closes p) :
    IsPending tokens (lines ++ [line]) b parent ↔ IsPending tokens lines b parent := by
  have hb : ∀ n, IsBoundary tokens (lines ++ [line]) n ↔ IsBoundary tokens lines n := by
    intro n
    rw [isBoundary_concat, or_iff_left]
    rintro ⟨-, m, hm, p, ho | hc⟩
    · exact (h m hm p).1 ho
    · exact (h m hm p).2 hc
  have ho : OpensAt tokens (lines ++ [line]) b parent ↔ OpensAt tokens lines b parent := by
    refine (exists_markerAt?_concat line).trans (or_iff_left ?_)
    rintro ⟨-, m, hm, ho⟩
    exact (h m hm parent).1 ho
  constructor
  · rintro ⟨hopen, hclear⟩
    exact ⟨ho.mp hopen, fun n hn hbn => hclear n hn ((hb n).mpr hbn)⟩
  · rintro ⟨hopen, hclear⟩
    exact ⟨ho.mpr hopen, fun n hn hbn => hclear n hn ((hb n).mp hbn)⟩

/-- Behind a boundary line, the only block that can be pending is one that this line opens. -/
theorem isPending_concat_of_boundary {line : Text} {b : Nat} {m : Marker}
    (hm : Marker.classify tokens (stripReturns line) = some m) {p : Text}
    (hp : m.Opens p ∨ m.Closes p) :
    IsPending tokens (lines ++ [line]) b parent ↔ b = lines.length + 1 ∧ m.Opens parent := by
  have hlast : IsBoundary tokens (lines ++ [line]) (lines.length + 1) :=
    (isBoundary_concat line).mpr (.inr ⟨rfl, m, hm, p, hp⟩)
  constructor
  · rintro ⟨hopen, hclear⟩
    rcases (exists_markerAt?_concat line).mp hopen with h | ⟨rfl, m', hm', ho⟩
    · have hb := OpensAt.le_length h
      exact absurd hlast (hclear _ (by omega))
    · rw [hm] at hm'
      exact ⟨rfl, Option.some.inj hm' ▸ ho⟩
  · rintro ⟨rfl, ho⟩
    refine ⟨(exists_markerAt?_concat line).mpr (.inr ⟨rfl, m, hm, ho⟩), fun n hn hbn => ?_⟩
    have hle := hbn.le_length
    rw [List.length_append, List.length_singleton] at hle
    omega

/-! ## Members of the lines read so far -/

theorem membersBetween_self (b : Nat) : membersBetween tokens lines b (b + 1) parent = [] := by
  simp [membersBetween]

/-- Lines behind the closing one play no part. -/
theorem membersBetween_concat (line : Text) {b e : Nat} (he : e ≤ lines.length + 1) :
    membersBetween tokens (lines ++ [line]) b e parent =
      membersBetween tokens lines b e parent := by
  refine List.filterMap_congr fun n hn => ?_
  have hn' : n ≤ lines.length := by
    have h := List.mem_range'_1.mp hn
    omega
  rw [memberAt?, memberAt?, markerAt?_concat_of_le line hn']

theorem membersBetween_succ {b e : Nat} (h : b < e) :
    membersBetween tokens lines b (e + 1) parent =
      membersBetween tokens lines b e parent ++ (memberAt? tokens lines parent e).toList := by
  have hsub : e + 1 - (b + 1) = e - (b + 1) + 1 := by omega
  have hadd : b + 1 + (e - (b + 1)) = e := by omega
  rw [membersBetween, hsub, List.range'_1_concat, hadd, List.filterMap_append, ← membersBetween]
  cases hm : memberAt? tokens lines parent e <;> simp [hm]

end Source

namespace Scan

open Source

/-! ## The state behind the lines read so far -/

/-- What the state of a scan has to do with the lines read so far: its records are those of the
enclosed blocks, and its block is the one that is pending. -/
structure Tracks (tokens : Tokens) (lines : List Text) (s : State) : Prop where
  sorted : s.records.Pairwise fun r r' => r'.line < r.line
  mem_records : ∀ r, r ∈ s.records ↔
    ∃ b e p, Encloses tokens lines b e p ∧ r = recordBetween tokens lines b e p
  pending : ∀ b p, IsPending tokens lines b p ↔
    ∃ blk, s.block = some blk ∧ blk.line = b ∧ blk.parent = p
  members : ∀ blk, s.block = some blk →
    blk.members.reverse = membersBetween tokens lines blk.line (lines.length + 1) blk.parent

variable {tokens : Tokens} {lines : List Text} {s s' : State} {line : Text}

theorem tracks_nil : Tracks tokens [] {} where
  sorted := .nil
  mem_records r := by
    constructor
    · intro h
      exact absurd h List.not_mem_nil
    · rintro ⟨b, e, p, ⟨hlt, -, ⟨m, hm, -⟩, -⟩, -⟩
      have he := le_length_of_markerAt? hm
      rw [List.length_nil] at he
      omega
  pending b p := by
    constructor
    · rintro ⟨⟨m, hm, -⟩, -⟩
      cases b with
      | zero => exact absurd hm (by simp [markerAt?])
      | succ b => exact absurd (le_length_of_markerAt? hm) (by simp)
    · rintro ⟨blk, h, -⟩
      exact absurd h (by simp)
  members blk h := absurd h (by simp)

namespace Tracks

/-- All records end on lines that were read. -/
theorem line_le (h : Tracks tokens lines s) {r : TypeRecord} (hr : r ∈ s.records) :
    r.line ≤ lines.length := by
  obtain ⟨b, e, p, henc, rfl⟩ := (h.mem_records r).mp hr
  obtain ⟨m, hm, -⟩ := henc.closes
  show (e : Int) ≤ lines.length
  exact_mod_cast le_length_of_markerAt? hm

theorem block_line_le (h : Tracks tokens lines s) {blk : Block} (hb : s.block = some blk) :
    blk.line ≤ lines.length :=
  ((h.pending blk.line blk.parent).mpr ⟨blk, hb, rfl, rfl⟩).opens.le_length

/-- One more line keeps the records so far, and adds that of the pending block if it closes it. -/
theorem enclosed_concat_iff (h : Tracks tokens lines s) (line : Text) (r : TypeRecord) :
    (∃ b e p, Encloses tokens (lines ++ [line]) b e p ∧
        r = recordBetween tokens (lines ++ [line]) b e p) ↔
      r ∈ s.records ∨ ∃ m b p, Marker.classify tokens (stripReturns line) = some m ∧ m.Closes p ∧
        IsPending tokens lines b p ∧
        r = recordBetween tokens (lines ++ [line]) b (lines.length + 1) p := by
  -- a record of the lines so far does not depend on the lines behind it
  have hold : ∀ {b e p}, Encloses tokens lines b e p →
      recordBetween tokens (lines ++ [line]) b e p = recordBetween tokens lines b e p := by
    intro b e p henc
    obtain ⟨m, hm, -⟩ := henc.closes
    have he := le_length_of_markerAt? hm
    rw [recordBetween, recordBetween, membersBetween_concat line (by omega)]
  rw [h.mem_records]
  constructor
  · rintro ⟨b, e, p, henc, rfl⟩
    rcases (encloses_concat line).mp henc with henc' | ⟨rfl, hp, m, hm, hc⟩
    · exact .inl ⟨b, e, p, henc', hold henc'⟩
    · exact .inr ⟨m, b, p, hm, hc, hp, rfl⟩
  · rintro (⟨b, e, p, henc, rfl⟩ | ⟨m, b, p, hm, hc, hp, rfl⟩)
    · exact ⟨b, e, p, (encloses_concat line).mpr (.inl henc), (hold henc).symm⟩
    · exact ⟨b, lines.length + 1, p, (encloses_concat line).mpr (.inr ⟨rfl, hp, m, hm, hc⟩), rfl⟩

/-- The records stay as they are when the next line does not close the pending block. -/
theorem mem_records_concat (h : Tracks tokens lines s)
    (hline : ∀ m b p, Marker.classify tokens (stripReturns line) = some m → m.Closes p →
      ¬ IsPending tokens lines b p) (r : TypeRecord) :
    r ∈ s.records ↔ ∃ b e p, Encloses tokens (lines ++ [line]) b e p ∧
      r = recordBetween tokens (lines ++ [line]) b e p := by
  rw [h.enclosed_concat_iff, or_iff_left]
  rintro ⟨m, b, p, hm, hc, hp, -⟩
  exact hline m b p hm hc hp

/-- The members of the pending block when the next line adds `ms` to them. -/
theorem members_concat (h : Tracks tokens lines s) {blk : Block} (hb : s.block = some blk)
    {ms : List Member}
    (hms : (memberAt? tokens (lines ++ [line]) blk.parent (lines.length + 1)).toList = ms) :
    blk.members.reverse ++ ms =
      membersBetween tokens (lines ++ [line]) blk.line ((lines ++ [line]).length + 1)
        blk.parent := by
  have hle := h.block_line_le hb
  rw [List.length_append, List.length_singleton, membersBetween_succ (by omega),
    membersBetween_concat line (Nat.le_refl _), hms, h.members blk hb]

/-- A line that is no well-formed marker changes nothing but the diagnostics. -/
theorem concat_of_idle (h : Tracks tokens lines s) (hr : s'.records = s.records)
    (hb : s'.block = s.block)
    (hline : ∀ m, Marker.classify tokens (stripReturns line) = some m →
      (∀ p, ¬ m.Opens p ∧ ¬ m.Closes p) ∧
        ∀ blk v n, s.block = some blk → ¬ m.Describes blk.parent v n) :
    Tracks tokens (lines ++ [line]) s' where
  sorted := hr ▸ h.sorted
  mem_records r := by
    rw [hr]
    exact h.mem_records_concat (fun m b p hm hc => absurd hc ((hline m hm).1 p).2) r
  pending b p := by
    rw [isPending_concat_of_not_boundary fun m hm => (hline m hm).1, hb]
    exact h.pending b p
  members blk hblk := by
    rw [hb] at hblk
    rw [← h.members_concat hblk rfl, memberAt?_eq_none, Option.toList_none, List.append_nil]
    intro m v n hm
    rw [markerAt?_concat_length] at hm
    exact (hline m hm).2 blk v n hblk

/-- A line that describes a member of the pending block adds it. -/
theorem concat_of_describes (h : Tracks tokens lines s) {m : Marker} {blk : Block} {v n : Text}
    (hm : Marker.classify tokens (stripReturns line) = some m) (hd : m.Describes blk.parent v n)
    (hb : s.block = some blk) (hr : s'.records = s.records)
    (hb' : s'.block = some { blk with
      members := { parent := blk.parent, valueType := v, name := n, line := (lines.length + 1 : Nat) } ::
        blk.members }) :
    Tracks tokens (lines ++ [line]) s' where
  sorted := hr ▸ h.sorted
  mem_records r := by
    rw [hr]
    refine h.mem_records_concat (fun m' b p hm' hc => ?_) r
    rw [hm] at hm'
    exact absurd hd (Option.some.inj hm' ▸ hc).not_describes
  pending b p := by
    rw [isPending_concat_of_not_boundary, h.pending, hb, hb']
    · simp
    · intro m' hm' q
      rw [hm] at hm'
      rw [← Option.some.inj hm']
      exact ⟨fun ho => ho.not_describes hd, fun hc => hc.not_describes hd⟩
  members blk' hblk' := by
    rw [hb'] at hblk'
    rw [← Option.some.inj hblk']
    have hat : markerAt? tokens (lines ++ [line]) (lines.length + 1) = some m :=
      (markerAt?_concat_length line).trans hm
    have hadd := memberAt?_eq_some_iff.mpr ⟨m, v, n, hat, hd, rfl⟩
    have h' := h.members_concat hb (congrArg Option.toList hadd)
    rw [← h', List.reverse_cons]
    rfl

/-- A line that opens a block makes it the pending one. -/
theorem concat_of_opens (h : Tracks tokens lines s) {m : Marker} {p : Text}
    (hm : Marker.classify tokens (stripReturns line) = some m) (ho : m.Opens p)
    (hr : s'.records = s.records)
    (hb' : s'.block = some { parent := p, line := lines.length + 1, members := [] }) :
    Tracks tokens (lines ++ [line]) s' where
  sorted := hr ▸ h.sorted
  mem_records r := by
    rw [hr]
    refine h.mem_records_concat (fun m' b q hm' hc => ?_) r
    rw [hm] at hm'
    exact absurd (Option.some.inj hm' ▸ hc) ho.not_closes
  pending b q := by
    rw [isPending_concat_of_boundary hm (.inl ho), hb']
    constructor
    · rintro ⟨rfl, hq⟩
      exact ⟨_, rfl, rfl, ho.parent_unique hq⟩
    · rintro ⟨blk, hblk, rfl, rfl⟩
      rw [← Option.some.inj hblk]
      exact ⟨rfl, ho⟩
  members blk hblk := by
    rw [hb'] at hblk
    rw [← Option.some.inj hblk, List.length_append, List.length_singleton, membersBetween_self]
    rfl

/-- A line that closes a block leaves none pending; the block is recorded if it was pending under
the name that the line gives. -/
theorem concat_of_closes (h : Tracks tokens lines s) {m : Marker} {p : Text}
    (hm : Marker.classify tokens (stripReturns line) = some m) (hc : m.Closes p)
    (hb' : s'.block = .none)
    (hr : (∃ blk, s.block = some blk ∧ blk.parent = p ∧
        s'.records = { name := p, line := (lines.length + 1 : Nat), members := blk.members.reverse } ::
          s.records) ∨
      (∀ blk, s.block = some blk → blk.parent ≠ p) ∧ s'.records = s.records) :
    Tracks tokens (lines ++ [line]) s' where
  sorted := by
    rcases hr with ⟨blk, -, -, hr⟩ | ⟨-, hr⟩
    · rw [hr]
      refine List.pairwise_cons.mpr ⟨fun r hmem => ?_, h.sorted⟩
      have hle := h.line_le hmem
      show r.line < ((lines.length + 1 : Nat) : Int)
      omega
    · rw [hr]
      exact h.sorted
  mem_records r := by
    rcases hr with ⟨blk, hb, rfl, hr⟩ | ⟨hne, hr⟩
    · have hrec : recordBetween tokens (lines ++ [line]) blk.line (lines.length + 1) blk.parent =
          { name := blk.parent, line := (lines.length + 1 : Nat), members := blk.members.reverse } := by
        rw [recordBetween, membersBetween_concat line (Nat.le_refl _), h.members blk hb]
      have hpend := (h.pending blk.line blk.parent).mpr ⟨blk, hb, rfl, rfl⟩
      rw [hr, List.mem_cons, h.enclosed_concat_iff, or_comm, ← hrec]
      refine or_congr_right ⟨fun hreq => ⟨m, blk.line, blk.parent, hm, hc, hpend, hreq⟩, ?_⟩
      rintro ⟨m', b, q, hm', hc', hq, rfl⟩
      obtain ⟨blk', hb', rfl, rfl⟩ := (h.pending b q).mp hq
      rw [hb] at hb'
      rw [Option.some.inj hb']
    · rw [hr]
      refine h.mem_records_concat (fun m' b q hm' hc' hq => ?_) r
      obtain ⟨blk, hb, -, hpar⟩ := (h.pending b q).mp hq
      rw [hm] at hm'
      exact hne blk hb (hpar.trans ((Option.some.inj hm' ▸ hc').parent_unique hc))
  pending b q := by
    rw [isPending_concat_of_boundary hm (.inr hc), hb']
    constructor
    · rintro ⟨-, hq⟩
      exact absurd hc hq.not_closes
    · rintro ⟨blk, hblk, -⟩
      exact absurd hblk (by simp)
  members blk hblk := by
    rw [hb'] at hblk
    exact absurd hblk (by simp)

/-- The step for a marker line keeps the state in line with the lines read. -/
theorem concat_step (h : Tracks tokens lines s) (path : Text) {l : MarkerLine}
    (hnumber : l.number = lines.length + 1)
    (hm : Marker.classify tokens (stripReturns line) = some l.marker) :
    Tracks tokens (lines ++ [line]) (step path s l) := by
  have hmarker : ∀ {m}, Marker.classify tokens (stripReturns line) = some m → m = l.marker :=
    fun hm' => Option.some.inj (hm'.symm.trans hm)
  rcases step_cases path s l with ⟨p, ho, e⟩ | ⟨p, v, n, hd, e⟩ | ⟨p, hc, e⟩ | ⟨hbad, c, -, e⟩
  · rw [e, hnumber]
    refine h.concat_of_opens hm ho ?_ rfl
    cases hb : s.block <;> simp [openBlock, hb]
  · -- a member counts only inside the block of its type
    cases hb : s.block with
    | none =>
      refine h.concat_of_idle (by simp [e, addMember, hb]) (by simp [e, addMember, hb]) ?_
      intro m hm'
      rw [hmarker hm']
      exact ⟨fun q => ⟨fun ho => ho.not_describes hd, fun hc => hc.not_describes hd⟩,
        fun blk _ _ hblk => absurd (hb.symm.trans hblk) (by simp)⟩
    | some blk =>
      by_cases hp : p = blk.parent
      · subst hp
        refine h.concat_of_describes hm hd hb (by simp [e, addMember, hb]) ?_
        simp [e, addMember, hb, hnumber]
      · refine h.concat_of_idle (by simp [e, addMember, hb, hp]) (by simp [e, addMember, hb, hp]) ?_
        intro m hm'
        rw [hmarker hm']
        refine ⟨fun q => ⟨fun ho => ho.not_describes hd, fun hc => hc.not_describes hd⟩, ?_⟩
        intro blk' v' n' hblk' hd'
        rw [hb] at hblk'
        rw [← Option.some.inj hblk'] at hd'
        exact hp (List.cons.inj (hd.args.symm.trans hd'.args)).1
  · cases hb : s.block with
    | none =>
      refine h.concat_of_closes hm hc (by simp [e, closeBlock, hb]) (.inr ⟨?_, ?_⟩)
      · intro blk hblk
        exact absurd (hb.symm.trans hblk) (by simp)
      · simp [e, closeBlock, hb]
    | some blk =>
      by_cases hp : p = blk.parent
      · subst hp
        refine h.concat_of_closes hm hc (by simp [e, closeBlock, hb]) (.inl ⟨blk, hb, rfl, ?_⟩)
        simp [e, closeBlock, hb, hnumber]
      · refine h.concat_of_closes hm hc (by simp [e, closeBlock, hb, hp]) (.inr ⟨?_, ?_⟩)
        · intro blk' hblk'
          rw [hb] at hblk'
          rw [← Option.some.inj hblk']
          exact fun heq => hp heq.symm
        · simp [e, closeBlock, hb, hp]
  · refine h.concat_of_idle (by simp [e]) (by simp [e]) ?_
    intro m hm'
    rw [hmarker hm']
    exact ⟨fun q => ⟨hbad.not_opens q, hbad.not_closes q⟩,
      fun blk v n _ => hbad.not_describes blk.parent v n⟩

/-- One more line, marker line or not, keeps the state in line with the lines read. -/
theorem concat (h : Tracks tokens lines s) (path line : Text) :
    Tracks tokens (lines ++ [line])
      ((markerLine? tokens line (lines.length + 1)).toList.foldl (step path) s) := by
  cases hm : Marker.classify tokens (stripReturns line) with
  | none =>
    rw [markerLine?, hm]
    exact h.concat_of_idle rfl rfl fun m hm' => absurd (hm.symm.trans hm') (by simp)
  | some m =>
    rw [markerLine?, hm]
    exact h.concat_step path rfl hm

end Tracks

/-- The state behind any number of lines. -/
theorem tracks_states (tokens : Tokens) (path : Text) (lines : List Text) :
    Tracks tokens lines (states path (markers tokens lines)) := by
  induction lines using List.reverseRecOn with
  | nil => exact tracks_nil
  | append_singleton lines line ih =>
    rw [markers_concat, states_append]
    exact ih.concat path line

/-- **The records of a text, without a state.**  In a text without an over-long line, whatever else
is wrong with it, there is one record for each pair of lines that enclose a block, in the order of
the closing lines.  Its name is the type of the block, its line is the closing one, and its members
are those that the lines in between describe. -/
theorem records_run_eq_enclosed (tokens : Tokens) (path content : Text)
    (h : ∀ line ∈ Source.lines content, line.length < maxLine) :
    (run tokens path content).records.Pairwise (fun r r' => r.line < r'.line) ∧
      ∀ r, r ∈ (run tokens path content).records ↔
        ∃ b e parent, Encloses tokens (Source.lines content) b e parent ∧
          r = recordBetween tokens (Source.lines content) b e parent := by
  have ht := tracks_states tokens path (Source.lines content)
  rw [records_run ((isComplete_iff content).mpr h)]
  refine ⟨List.pairwise_reverse.mpr ht.sorted, fun r => ?_⟩
  rw [List.mem_reverse]
  exact ht.mem_records r

/-- Three tokens of one letter. -/
def letterTokens : Tokens := { opening := lit "B", member := lit "D", closing := lit "E" }

/-- A text with a member of another type, a dropped block and a marker that is not closed. -/
def faultyText : Text :=
  lit "B(A)\nD(A, int, x)\nD(Z, int, y)\nE(A)\nB(C)\nB(G)\nE(G\nE(G)\n"

/-- The first record of the faulty text is enclosed by two of its lines. -/
theorem records_run_faultyText :
    (∀ line ∈ Source.lines faultyText, line.length < maxLine) ∧
      ∃ b e parent, Encloses letterTokens (Source.lines faultyText) b e parent ∧
        { name := lit "A", line := 4,
          members := [{ parent := lit "A", valueType := lit "int", name := lit "x", line := 2 }] } =
          recordBetween letterTokens (Source.lines faultyText) b e parent :=
  have h : ∀ line ∈ Source.lines faultyText, line.length < maxLine := by decide +kernel
  ⟨h, ((records_run_eq_enclosed letterTokens [] faultyText h).2 _).mp (by decide +kernel)⟩

end Scan

end ReflectGen
