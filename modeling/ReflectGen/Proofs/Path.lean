import Mathlib.Data.List.TakeDrop
import Mathlib.Data.List.TakeWhile
import ReflectGen.Path

/-!
# Paths and their components

A path is cut behind its last slash, and the cut can be found again from the outside: it is the only
way to write the path as a directory part, which is empty or ends in a slash, followed by a name
without a slash.  Cleaning a path keeps a list of components, and a name in the directory of a path
is one more component.

* `Text.splitOn_append`, `Text.splitOn_of_notMem`: cutting a text that is put together.
* `Path.IsDirPart`, `Path.split_append`: the cut behind the last slash is unique.
* `Path.dirText`: the directory part with the given components, and `Path.components`: the
  components that cleaning keeps.
* `Path.join_eq`: the path of a file below a directory.
-/

namespace ReflectGen

namespace Text

/-! ## Cutting at a byte -/

theorem splitLoop_append (b : UInt8) (p q : Text) : ∀ cur : Text,
    splitLoop b (p ++ b :: q) cur [] = splitLoop b p cur [] ++ splitLoop b q [] [] := by
  induction p with
  | nil =>
    intro cur
    have hcut : splitLoop b (b :: q) cur [] = splitLoop b q [] [cur.reverse] := by
      rw [splitLoop, if_pos (beq_self_eq_true b)]
    rw [List.nil_append, hcut, splitLoop_eq]
    rfl
  | cons c p ih =>
    intro cur
    rw [List.cons_append, splitLoop, splitLoop]
    split
    · rw [splitLoop_eq, ih [], splitLoop_eq b p [] [cur.reverse], List.append_assoc]
    · exact ih (c :: cur)

/-- The pieces of a text that is put together with the byte between its parts. -/
theorem splitOn_append (b : UInt8) (p q : Text) :
    splitOn b (p ++ b :: q) = splitOn b p ++ splitOn b q := splitLoop_append b p q []

theorem splitLoop_of_notMem {b : UInt8} {p : Text} (h : b ∉ p) : ∀ cur : Text,
    splitLoop b p cur [] = [cur.reverse ++ p] := by
  induction p with
  | nil =>
    intro cur
    simp [splitLoop]
  | cons c p ih =>
    intro cur
    rw [List.mem_cons, not_or] at h
    obtain ⟨hc, hp⟩ := h
    rw [splitLoop, if_neg (fun heq => hc (beq_iff_eq.mp heq).symm), ih hp]
    simp

theorem splitOn_of_notMem {b : UInt8} {p : Text} (h : b ∉ p) : splitOn b p = [p] :=
  splitLoop_of_notMem h []

/-- Each of the pieces is an infix of the joined text. -/
theorem isInfix_join (sep : Text) {piece : Text} : ∀ {pieces : List Text},
    piece ∈ pieces → piece <:+: join sep pieces
  | [a], h => by
    refine ⟨[], [], ?_⟩
    rw [List.mem_singleton.mp h, join, List.intercalate_singleton, List.nil_append, List.append_nil]
  | a :: b :: pieces, h => by
    rw [join_cons_cons]
    rcases List.mem_cons.mp h with rfl | h
    · rw [List.append_assoc]
      exact (List.prefix_append _ _).isInfix
    · exact (isInfix_join sep h).trans (List.suffix_append _ _).isInfix

/-- No piece has the byte in it. -/
theorem notMem_of_mem_splitOn {b : UInt8} {t piece : Text} (h : piece ∈ splitOn b t) :
    b ∉ piece := by
  have key : ∀ (t cur : Text), b ∉ cur → piece ∈ splitLoop b t cur [] → b ∉ piece := by
    intro t
    induction t with
    | nil =>
      intro cur hcur hp
      rw [splitLoop, List.reverse_singleton, List.mem_singleton] at hp
      rw [hp, List.mem_reverse]
      exact hcur
    | cons c t ih =>
      intro cur hcur hp
      rw [splitLoop] at hp
      split at hp
      · rw [splitLoop_eq, List.reverse_singleton, List.singleton_append, List.mem_cons] at hp
        rcases hp with rfl | hp
        · rw [List.mem_reverse]
          exact hcur
        · exact ih [] List.not_mem_nil hp
      · next hc =>
        refine ih (c :: cur) ?_ hp
        rw [List.mem_cons, not_or]
        exact ⟨fun heq => hc (beq_iff_eq.mpr heq.symm), hcur⟩
  exact key t [] List.not_mem_nil h

/-- The pieces around the last byte `b`. -/
theorem splitLast?_eq_some {b : UInt8} {t front back : Text}
    (h : splitLast? b t = some (front, back)) : t = front ++ b :: back ∧ b ∉ back := by
  unfold splitLast? at h
  rw [List.span_eq_takeWhile_dropWhile] at h
  split at h
  · exact absurd h (by simp)
  · next taken c dropped hsplit =>
    obtain ⟨htake, hdrop⟩ := Prod.mk.inj hsplit
    obtain ⟨rfl, rfl⟩ := Prod.mk.inj (Option.some.inj h)
    have hc : c = b := by
      have hhead := List.head?_dropWhile_not (· != b) t.reverse
      rw [hdrop] at hhead
      simpa using hhead
    have ht : t.reverse = taken ++ c :: dropped := by
      rw [← htake, ← hdrop, List.takeWhile_append_dropWhile]
    refine ⟨?_, fun hb => ?_⟩
    · rw [← List.reverse_reverse t, ht, hc]
      simp
    · rw [List.mem_reverse, ← htake] at hb
      have hne := List.mem_takeWhile_imp hb
      simp at hne

theorem splitLast?_eq_none {b : UInt8} {t : Text} (h : splitLast? b t = none) : b ∉ t := by
  unfold splitLast? at h
  rw [List.span_eq_takeWhile_dropWhile] at h
  split at h
  · next taken hsplit =>
    intro hb
    have hall := List.dropWhile_eq_nil_iff.mp (Prod.mk.inj hsplit).2 b (List.mem_reverse.mpr hb)
    simp at hall
  · exact absurd h (by simp)

end Text

namespace Path

/-- The text can stand in front of a last component: it is empty or ends in a slash. -/
def IsDirPart (d : Text) : Prop := d = [] ∨ ∃ front, d = front ++ [slash]

/-- A path is its directory part and its last component, in this order. -/
theorem split_spec (p : Text) :
    (split p).1 ++ (split p).2 = p ∧ IsDirPart (split p).1 ∧ slash ∉ (split p).2 := by
  unfold split
  cases h : Text.splitLast? slash p with
  | none => exact ⟨rfl, .inl rfl, Text.splitLast?_eq_none h⟩
  | some fb =>
    obtain ⟨front, back⟩ := fb
    obtain ⟨hp, hback⟩ := Text.splitLast?_eq_some h
    exact ⟨by simp [hp], .inr ⟨front, rfl⟩, hback⟩

/-- There is one way only to cut a path behind its last slash. -/
theorem isDirPart_append_inj {d d' k k' : Text} (hd : IsDirPart d) (hd' : IsDirPart d')
    (hk : slash ∉ k) (hk' : slash ∉ k') (h : d ++ k = d' ++ k') : d = d' ∧ k = k' := by
  -- the longer directory part would put a slash into the other name
  have key : ∀ {d d' k k' u : Text}, IsDirPart d' → slash ∉ k → d' = d ++ u → k = u ++ k' →
      u = [] := by
    intro d d' k k' u hd' hk hdu hku
    rcases List.eq_nil_or_concat u with hu | ⟨u', x, rfl⟩
    · exact hu
    · rcases hd' with rfl | ⟨front, rfl⟩
      · exact absurd hdu (by simp)
      · rw [List.concat_eq_append, ← List.append_assoc] at hdu
        have hx : slash = x := by simpa using (List.append_inj' hdu rfl).2
        rw [hku, hx] at hk
        exact absurd hk (by simp)
  rcases List.append_eq_append_iff.mp h with ⟨u, hu, hk1⟩ | ⟨u, hu, hk1⟩
  · have hnil := key hd' hk hu hk1
    rw [hnil] at hu hk1
    exact ⟨by simpa using hu.symm, hk1⟩
  · have hnil := key hd hk' hu hk1
    rw [hnil] at hu hk1
    exact ⟨by simpa using hu, hk1.symm⟩

/-- The cut is found again. -/
theorem split_append {d k : Text} (hd : IsDirPart d) (hk : slash ∉ k) :
    split (d ++ k) = (d, k) := by
  obtain ⟨happ, hdir, hlast⟩ := split_spec (d ++ k)
  obtain ⟨h₁, h₂⟩ := isDirPart_append_inj hdir hd hlast hk happ
  exact Prod.ext h₁ h₂

/-! ## Components -/

/-- The text can be a component of a path. -/
structure IsComponent (c : Text) : Prop where
  ne_nil : c ≠ []
  slash_notMem : slash ∉ c

/-- The text can be the name of an entry in a directory. -/
structure IsName (n : Text) : Prop extends IsComponent n where
  ne_here : n ≠ here
  ne_above : n ≠ above

theorem isName_iff (n : Text) : IsName n ↔ (n ≠ [] ∧ slash ∉ n) ∧ n ≠ here ∧ n ≠ above :=
  ⟨fun h => ⟨⟨h.ne_nil, h.slash_notMem⟩, h.ne_here, h.ne_above⟩,
    fun h => ⟨⟨h.1.1, h.1.2⟩, h.2.1, h.2.2⟩⟩

instance (n : Text) : Decidable (IsName n) := decidable_of_iff' _ (isName_iff n)

/-- The directory part with these components. -/
def dirText (rooted : Bool) (dirs : List Text) : Text :=
  (if rooted then [slash] else []) ++ dirs.flatMap (· ++ [slash])

theorem dirText_concat (rooted : Bool) (dirs : List Text) (d : Text) :
    dirText rooted (dirs ++ [d]) = dirText rooted dirs ++ d ++ [slash] := by
  simp [dirText]

theorem isDirPart_dirText (rooted : Bool) (dirs : List Text) : IsDirPart (dirText rooted dirs) := by
  rcases List.eq_nil_or_concat dirs with rfl | ⟨dirs, d, rfl⟩
  · cases rooted
    · exact .inl rfl
    · exact .inr ⟨[], rfl⟩
  · rw [List.concat_eq_append, dirText_concat]
    exact .inr ⟨_, rfl⟩

/-- Components with slashes between them. -/
theorem join_concat (dirs : List Text) (n : Text) :
    Text.join [slash] (dirs ++ [n]) = dirs.flatMap (· ++ [slash]) ++ n :=
  Text.intercalate_concat [slash] dirs n

/-- The pieces of a path that is written out by its components. -/
theorem splitOn_dirText_append (rooted : Bool) {dirs : List Text} {k : Text}
    (hdirs : ∀ d ∈ dirs, slash ∉ d) (hk : slash ∉ k) :
    Text.splitOn slash (dirText rooted dirs ++ k) =
      (if rooted then [[]] else []) ++ dirs ++ [k] := by
  have hbody : Text.splitOn slash (dirs.flatMap (· ++ [slash]) ++ k) = dirs ++ [k] := by
    induction dirs with
    | nil => exact Text.splitOn_of_notMem hk
    | cons d dirs ih =>
      have hd := hdirs d List.mem_cons_self
      rw [List.flatMap_cons, List.append_assoc, List.append_assoc, List.singleton_append,
        Text.splitOn_append, Text.splitOn_of_notMem hd,
        ih fun d' hd' => hdirs d' (List.mem_cons_of_mem d hd')]
      rfl
  cases rooted
  · exact hbody
  · show Text.splitOn slash ([] ++ slash :: (dirs.flatMap (· ++ [slash]) ++ k)) = _
    rw [Text.splitOn_append, hbody]
    rfl

/-- The components that cleaning a path keeps. -/
def components (p : Text) : List Text :=
  ((Text.splitOn slash p).foldl (push (isAbsolute p)) []).reverse

theorem isComponent_above : IsComponent above := ⟨by decide, by decide⟩

theorem isComponent_push {rooted : Bool} {stack : List Text} {c : Text} (hc : slash ∉ c)
    (h : ∀ d ∈ stack, IsComponent d) : ∀ d ∈ push rooted stack c, IsComponent d := by
  unfold push
  split
  · exact h
  · next hne =>
    split
    · split
      · split
        · exact fun d hd => absurd hd List.not_mem_nil
        · intro d hd
          rw [List.mem_singleton.mp hd]
          exact isComponent_above
      · next top rest =>
        split
        · intro d hd
          rcases List.mem_cons.mp hd with rfl | hd
          · exact isComponent_above
          · exact h d hd
        · exact fun d hd => h d (List.mem_cons_of_mem _ hd)
    · intro d hd
      rcases List.mem_cons.mp hd with rfl | hd
      · refine ⟨?_, hc⟩
        rintro rfl
        exact hne rfl
      · exact h d hd

/-- What cleaning keeps are components. -/
theorem isComponent_of_mem_components {p c : Text} (h : c ∈ components p) : IsComponent c := by
  have key : ∀ (pieces stack : List Text), (∀ piece ∈ pieces, slash ∉ piece) →
      (∀ d ∈ stack, IsComponent d) →
      ∀ d ∈ pieces.foldl (push (isAbsolute p)) stack, IsComponent d := by
    intro pieces
    induction pieces with
    | nil => exact fun stack _ hstack => hstack
    | cons piece pieces ih =>
      intro stack hpieces hstack
      exact ih _ (fun q hq => hpieces q (List.mem_cons_of_mem piece hq))
        (isComponent_push (hpieces piece List.mem_cons_self) hstack)
  refine key _ [] (fun piece hp => Text.notMem_of_mem_splitOn hp) ?_ c (List.mem_reverse.mp h)
  exact fun d hd => absurd hd List.not_mem_nil

/-- Names are put on top of the components before them. -/
theorem foldl_push_names (rooted : Bool) {names : List Text} (h : ∀ n ∈ names, IsName n) :
    ∀ stack : List Text, names.foldl (push rooted) stack = names.reverse ++ stack := by
  induction names with
  | nil => exact fun _ => rfl
  | cons n names ih =>
    intro stack
    have hn := h n List.mem_cons_self
    have hpush : push rooted stack n = n :: stack := by
      simp [push, hn.ne_nil, hn.ne_here, hn.ne_above]
    rw [List.foldl_cons, hpush, ih (fun m hm => h m (List.mem_cons_of_mem n hm))]
    simp

theorem clean_eq_of_components {p : Text} {dirs : List Text} {n : Text}
    (h : components p = dirs ++ [n]) : clean p = dirText (isAbsolute p) dirs ++ n := by
  have hclean : clean p = if isAbsolute p then slash :: Text.join [slash] (components p)
      else if (components p).isEmpty then here else Text.join [slash] (components p) := rfl
  rw [hclean, h, join_concat, dirText]
  cases isAbsolute p <;> simp

/-- The path of a file below a directory, by its components. -/
theorem join_eq {root : Text} (hroot : root ≠ []) {dirs : List Text} {n : Text}
    (hdirs : ∀ d ∈ dirs, IsName d) (hn : IsName n) :
    join root (Text.join [slash] (dirs ++ [n])) =
      dirText (isAbsolute root) (components root ++ dirs) ++ n := by
  have hnames : ∀ m ∈ dirs ++ [n], IsName m := by
    intro m hm
    rcases List.mem_append.mp hm with hm | hm
    · exact hdirs m hm
    · exact List.mem_singleton.mp hm ▸ hn
  have hrel : Text.join [slash] (dirs ++ [n]) ≠ [] := by
    rw [join_concat]
    simp [hn.ne_nil]
  have hjoin : join root (Text.join [slash] (dirs ++ [n])) =
      clean (root ++ slash :: Text.join [slash] (dirs ++ [n])) := by
    have hfilter : [root, Text.join [slash] (dirs ++ [n])].filter (!·.isEmpty) =
        [root, Text.join [slash] (dirs ++ [n])] := by
      rw [List.filter_eq_self]
      intro e he
      rcases List.mem_cons.mp he with rfl | he
      · simpa using hroot
      · rw [List.mem_singleton.mp he]
        simpa using hrel
    rw [join, joinAll, hfilter]
    show clean (Text.join [slash] [root, Text.join [slash] (dirs ++ [n])]) = _
    rw [Text.join_cons_cons]
    simp [Text.join]
  have habs : isAbsolute (root ++ slash :: Text.join [slash] (dirs ++ [n])) = isAbsolute root := by
    obtain ⟨b, root', rfl⟩ := List.exists_cons_of_ne_nil hroot
    rfl
  have hsplit : Text.splitOn slash (Text.join [slash] (dirs ++ [n])) = dirs ++ [n] := by
    rw [join_concat]
    exact splitOn_dirText_append false (fun d hd => (hdirs d hd).slash_notMem) hn.slash_notMem
  have hcomp : components (root ++ slash :: Text.join [slash] (dirs ++ [n])) =
      (components root ++ dirs) ++ [n] := by
    rw [components, habs, Text.splitOn_append, hsplit, List.foldl_append,
      foldl_push_names _ hnames, components]
    simp
  rw [hjoin, clean_eq_of_components hcomp, habs]

end Path

end ReflectGen
