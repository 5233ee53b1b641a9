import Mathlib.Data.Prod.Lex
import Sentinel.Scripts.Backup

/-!
# Scripts — Archives

The archives of a project: which names the regular expression matches (`parseArchive_eq_some`),
that no name is an archive of two projects (`parseArchive_unique`), and that the keys the script
compares as strings order the archives by the time in their names, their modification time and
their nonce (`key_lt_iff`).
-/

namespace Sentinel.Scripts

open Numerals

/-! ### Times -/

theorem UtcTime.lt_iff {a b : UtcTime} : a < b ↔ a.fields < b.fields := Iff.rfl

@[simp] theorem UtcTime.length_text (t : UtcTime) : t.text.length = 35 := by
  simp [UtcTime.text]

/-- The texts of times compare as the times do. -/
theorem UtcTime.text_lt_iff {a b : UtcTime} : a.text < b.text ↔ a < b := by
  simp (disch := decide) only [UtcTime.text, UtcTime.lt_iff, UtcTime.fields,
    digits_append_lt_iff, List.cons_lt_cons_iff, lt_self_iff_false, false_or, and_false, or_false,
    true_and]

/-! ### The names of archives -/

theorem literal_eq_some {t s r : Text} : literal t s = some r ↔ s = t ++ r := by
  unfold literal
  constructor
  · intro h
    split at h
    · rename_i ht
      calc s = s.take t.length ++ s.drop t.length := (List.take_append_drop _ _).symm
        _ = t ++ r := by rw [ht, Option.some.inj h]
    · cases h
  · rintro rfl
    simp

/-- `n` characters of a class. -/
def Chars (p : Char → Bool) (n : Nat) (s : Text) : Prop := s.length = n ∧ s.all p

theorem span_eq_some {p : Char → Bool} {n : Nat} {s a r : Text} :
    span p n s = some (a, r) ↔ Chars p n a ∧ s = a ++ r := by
  unfold span
  constructor
  · intro h
    split at h
    · rename_i hchars
      cases h
      exact ⟨hchars, (List.take_append_drop n s).symm⟩
    · cases h
  · rintro ⟨⟨rfl, hall⟩, rfl⟩
    simpa using hall

theorem fraction_eq_some {s ns r : Text} : fraction s = some (ns, r) ↔
    (Chars Char.isDigit 9 ns ∧ s = '.' :: (ns ++ r)) ∨
      (s.head? ≠ some '.' ∧ ns = "000000000".toList ∧ s = r) := by
  unfold fraction
  split
  · rename_i s
    simp [span_eq_some]
  · rename_i hdot
    have hhead : s.head? ≠ some '.' := by
      intro hhead
      obtain ⟨s', rfl⟩ := List.head?_eq_some_iff.mp hhead
      exact hdot s' rfl
    constructor
    · intro h
      cases h
      exact .inr ⟨hhead, rfl, rfl⟩
    · rintro (⟨-, rfl⟩ | ⟨-, rfl, rfl⟩)
      · simp at hhead
      · rfl

/-- A time as a name has it: with its fraction, or as the names without one have it. -/
inductive Written : Text → Text → Prop where
  | current {date clock ns : Text} (hdate : Chars Char.isDigit 8 date)
      (hclock : Chars Char.isDigit 6 clock) (hns : Chars Char.isDigit 9 ns) :
      Written (date ++ 'T' :: (clock ++ '.' :: (ns ++ ['Z'])))
        (date ++ 'T' :: (clock ++ '.' :: (ns ++ ['Z'])))
  | legacy {date clock : Text} (hdate : Chars Char.isDigit 8 date)
      (hclock : Chars Char.isDigit 6 clock) :
      Written (date ++ 'T' :: (clock ++ '.' :: ("000000000".toList ++ ['Z'])))
        (date ++ 'T' :: (clock ++ ['Z']))

theorem Written.length {time text : Text} (h : Written time text) : time.length = 26 := by
  cases h with
  | current hdate hclock hns => simp [hdate.1, hclock.1, hns.1]
  | legacy hdate hclock => simp [hdate.1, hclock.1]

theorem stamp_eq_some {s time r : Text} :
    stamp s = some (time, r) ↔ ∃ text, Written time text ∧ s = text ++ r := by
  simp only [stamp, Option.bind_eq_bind, Option.bind_eq_some_iff, Prod.exists, span_eq_some,
    literal_eq_some, fraction_eq_some, Option.pure_def, Option.some.injEq, Prod.mk.injEq]
  constructor
  · rintro ⟨date, s₁, ⟨hdate, rfl⟩, s₂, rfl, clock, s₃, ⟨hclock, rfl⟩, ns, s₄, hfraction, s₅, rfl,
      rfl, rfl⟩
    rcases hfraction with ⟨hns, rfl⟩ | ⟨-, rfl, rfl⟩
    · exact ⟨_, .current hdate hclock hns, by simp⟩
    · exact ⟨_, .legacy hdate hclock, by simp⟩
  · rintro ⟨text, hwritten, rfl⟩
    cases hwritten with
    | current hdate hclock hns =>
        exact ⟨_, _, ⟨hdate, List.append_assoc _ _ _⟩, _, rfl, _, _,
          ⟨hclock, List.append_assoc _ _ _⟩, _, _, .inl ⟨hns, by simp⟩, _, rfl, rfl, rfl⟩
    | legacy hdate hclock =>
        exact ⟨_, _, ⟨hdate, List.append_assoc _ _ _⟩, _, rfl, _, _,
          ⟨hclock, List.append_assoc _ _ _⟩, _, _, .inr ⟨by simp, rfl, rfl⟩, _, rfl, rfl, rfl⟩

/-- **The names of a project's archives**: what the regular expression matches, and its groups. -/
theorem parseArchive_eq_some {project time nonce : Text} {base : Name} :
    parseArchive project base = some (time, nonce) ↔
      ∃ text, Written time text ∧ Chars isHex 12 nonce ∧ base = archiveName project text nonce := by
  simp only [parseArchive, Option.bind_eq_bind, Option.bind_eq_some_iff, Prod.exists, span_eq_some,
    literal_eq_some, stamp_eq_some, archiveName]
  constructor
  · rintro ⟨s₁, rfl, time', s₂, ⟨text, hwritten, rfl⟩, s₃, rfl, nonce', s₄, ⟨hnonce, rfl⟩, h⟩
    split at h
    · rename_i hend
      cases h
      exact ⟨text, hwritten, hnonce, by rw [hend, List.singleton_append]⟩
    · cases h
  · rintro ⟨text, hwritten, hnonce, rfl⟩
    exact ⟨_, rfl, _, _, ⟨text, hwritten, rfl⟩, _, rfl, _, _, ⟨hnonce, rfl⟩, if_pos rfl⟩

/-- The pattern of the loop matches every archive. -/
theorem globMatches_of_parse {project : Text} {base : Name}
    (h : (parseArchive project base).isSome) : globMatches project base = true := by
  obtain ⟨⟨time, nonce⟩, hparse⟩ := Option.isSome_iff_exists.mp h
  obtain ⟨text, -, -, rfl⟩ := parseArchive_eq_some.mp hparse
  have hrest : literal (backupPrefix project) (archiveName project text nonce) =
      some (text ++ '-' :: (nonce ++ sqlGz)) := literal_eq_some.mpr rfl
  simp only [globMatches, hrest, List.isSuffixOf_iff_suffix]
  exact ⟨text ++ '-' :: nonce, by simp⟩

/-- The name of a new archive is one of its project. -/
theorem parseArchive_archiveName {project time nonce : Text} (htime : isStamp time = true)
    (hnonce : isNonce nonce = true) :
    parseArchive project (archiveName project time nonce) = some (time, nonce) := by
  have hstamp : stamp time = some (time, []) := by simpa [isStamp] using htime
  obtain ⟨text, hwritten, htext⟩ := stamp_eq_some.mp hstamp
  rw [List.append_nil] at htext
  have hchars : Chars isHex 12 nonce := by simpa [isNonce, Chars] using hnonce
  exact parseArchive_eq_some.mpr ⟨text, hwritten, hchars, by rw [htext]⟩

/-- A text with a fraction has a dot where one without has a digit, counted from the end. -/
theorem Written.shape {time text : Text} (h : Written time text) (rest : Text) :
    (text.length = 26 ∧ (text ++ rest)[15]? = some '.') ∨
      (text.length = 16 ∧ ∃ c, (text ++ rest)[5]? = some c ∧ c ≠ '.') := by
  cases h with
  | @current date clock ns hdate hclock hns =>
      refine .inl ⟨by simp [hdate.1, hclock.1, hns.1], ?_⟩
      rw [List.append_assoc, List.getElem?_append_right (by simp [hdate.1])]
      simp [hdate.1, hclock.1]
  | @legacy date clock hdate hclock =>
      have hfive : 5 < date.length := by simp [hdate.1]
      refine .inr ⟨by simp [hdate.1, hclock.1], date[5], ?_, fun hdot => ?_⟩
      · rw [List.append_assoc, List.getElem?_append_left hfive, List.getElem?_eq_getElem hfive]
      · have hdigit := List.all_eq_true.mp hdate.2 _ (List.getElem_mem hfive)
        rw [hdot] at hdigit
        exact absurd hdigit (by decide)

theorem getElem?_aligned {a b s t : Text} (h : a ++ s = b ++ t)
    (hlen : s.length = t.length + 10) : s[15]? = t[5]? := by
  have hab : b.length = a.length + 10 := by
    have hlength := congrArg List.length h
    simp only [List.length_append] at hlength
    omega
  have hs : (a ++ s)[a.length + 15]? = s[15]? := by
    rw [List.getElem?_append_right (Nat.le_add_right _ _), Nat.add_sub_cancel_left]
  have ht : (b ++ t)[b.length + 5]? = t[5]? := by
    rw [List.getElem?_append_right (Nat.le_add_right _ _), Nat.add_sub_cancel_left]
  rw [← hs, ← ht, h, hab]

/-- A name is an archive of one project only, whatever the projects have in common. -/
theorem parseArchive_unique {project project' : Text} {base : Name}
    (h : (parseArchive project base).isSome) (h' : (parseArchive project' base).isSome) :
    project = project' := by
  obtain ⟨⟨time, nonce⟩, hparse⟩ := Option.isSome_iff_exists.mp h
  obtain ⟨⟨time', nonce'⟩, hparse'⟩ := Option.isSome_iff_exists.mp h'
  obtain ⟨text, hwritten, hnonce, rfl⟩ := parseArchive_eq_some.mp hparse
  obtain ⟨text', hwritten', hnonce', heq⟩ := parseArchive_eq_some.mp hparse'
  have hrest : ('-' :: (nonce ++ sqlGz)).length = ('-' :: (nonce' ++ sqlGz)).length := by
    simp [hnonce.1, hnonce'.1]
  rw [archiveName, archiveName] at heq
  have hsame (hlen : text.length = text'.length) : project = project' := by
    have hprefix := List.append_inj_left' heq (by simp only [List.length_append, hlen, hrest])
    exact List.append_cancel_right (List.append_cancel_left hprefix)
  rcases hwritten.shape ('-' :: (nonce ++ sqlGz)) with ⟨hlen, hdot⟩ | ⟨hlen, c, hc, hne⟩ <;>
    rcases hwritten'.shape ('-' :: (nonce' ++ sqlGz)) with ⟨hlen', hdot'⟩ | ⟨hlen', c', hc', hne'⟩
  · exact hsame (hlen.trans hlen'.symm)
  · -- the dot of one name would be the digit of the other
    have haligned := getElem?_aligned heq
      (by simp only [List.length_append, hlen, hlen', hrest]; omega)
    rw [hdot, hc'] at haligned
    exact absurd (Option.some.inj haligned).symm hne'
  · have haligned := getElem?_aligned heq.symm
      (by simp only [List.length_append, hlen, hlen', hrest]; omega)
    rw [hdot', hc] at haligned
    exact absurd (Option.some.inj haligned).symm hne
  · exact hsame (hlen.trans hlen'.symm)

/-! ### The order of archives -/

/-- What the archives are ordered by: the time in the name, the modification time, the nonce. -/
abbrev Rank := Text ×ₗ UtcTime ×ₗ Text

/-- The rank of an archive of the project, or `none` for any other entry. -/
def rank (project : Text) (d : Directory) (name : Name) : Option Rank :=
  match d.lookup name, parseArchive project name with
  | some (.file mtime _), some (time, nonce) => some (toLex (time, toLex (mtime, nonce)))
  | _, _ => none

/-- The archives of the project: regular files with a canonical name. -/
def owned (project : Text) (d : Directory) : List Name :=
  d.keys.filter fun name => (rank project d name).isSome

/-- The key the loop compares for a rank. -/
def Rank.key (r : Rank) : Text :=
  archiveKey (ofLex r).1 (ofLex (ofLex r).2).1.text (ofLex (ofLex r).2).2

theorem rank_eq_some {project : Text} {d : Directory} {name : Name} {r : Rank} :
    rank project d name = some r ↔ ∃ mtime content time nonce,
      d.lookup name = some (.file mtime content) ∧
        parseArchive project name = some (time, nonce) ∧
          r = toLex (time, toLex (mtime, nonce)) := by
  unfold rank
  constructor
  · intro h
    split at h
    · rename_i mtime content time nonce hlookup hparse
      cases h
      exact ⟨mtime, content, time, nonce, hlookup, hparse, rfl⟩
    · cases h
  · rintro ⟨mtime, content, time, nonce, hlookup, hparse, rfl⟩
    rw [hlookup, hparse]

/-- The keys compare as the ranks do. -/
theorem key_lt_iff {project project' : Text} {d d' : Directory} {name name' : Name} {r r' : Rank}
    (h : rank project d name = some r) (h' : rank project' d' name' = some r') :
    r.key < r'.key ↔ r < r' := by
  obtain ⟨mtime, content, time, nonce, -, hparse, rfl⟩ := rank_eq_some.mp h
  obtain ⟨mtime', content', time', nonce', -, hparse', rfl⟩ := rank_eq_some.mp h'
  obtain ⟨text, hwritten, -, -⟩ := parseArchive_eq_some.mp hparse
  obtain ⟨text', hwritten', -, -⟩ := parseArchive_eq_some.mp hparse'
  have htimes : time.length = time'.length := hwritten.length.trans hwritten'.length.symm
  have hmtimes : mtime.text = mtime'.text ↔ mtime = mtime' :=
    eq_iff_of_lt_iff UtcTime.text_lt_iff UtcTime.text_lt_iff
  simp only [Rank.key, archiveKey, ofLex_toLex, Prod.Lex.toLex_lt_toLex,
    append_lt_append_iff _ _ htimes, append_lt_append_iff _ _ (mtime.length_text.trans
      mtime'.length_text.symm), List.cons_lt_cons_iff, lt_self_iff_false, false_or, true_and,
    UtcTime.text_lt_iff, hmtimes]

end Sentinel.Scripts
