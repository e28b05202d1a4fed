import ChatCommands.Text.Blank
import ChatCommands.Text.Casing

/-!
# What is in lower case

Putting a text in lower case twice is the same as once (`lower_lower`), and it brings no blank into
the text (`isBlank_of_mem_lower`).

This is a matter of the table of capitals: no lower case of a capital is a capital again, and none
is a blank. It is checked run by run (`Casing.capitals_settled`). A run and the capitals are told
apart as intervals, or by parity where capitals alternate with their own lower case.
-/

namespace ChatCommands.Text

namespace Casing

/-- Whether a code point is a capital of the run. -/
def CapitalRun.Has (run : CapitalRun) (n : Nat) : Prop :=
  run.first ≤ n ∧ n ≤ run.last ∧ (n - run.first) % run.step = 0

/-- The lower case of a capital of the run. -/
def CapitalRun.lowerOf (run : CapitalRun) (n : Nat) : Nat :=
  run.target + (n - run.first)

/-- A code point that has a lower case of its own is a capital of some run. -/
theorem lowerCode_cases (n : Nat) (runs : List CapitalRun) :
    lowerCode n runs = n ∨ ∃ run ∈ runs, run.Has n ∧ lowerCode n runs = run.lowerOf n := by
  induction runs with
  | nil => exact Or.inl rfl
  | cons run runs ih =>
    rw [lowerCode]
    split
    · exact Or.inl rfl
    · next hfirst =>
      split
      · next hlast =>
        split
        · next hstep =>
          exact Or.inr ⟨run, List.mem_cons_self, ⟨Nat.not_lt.1 hfirst, hlast, hstep⟩, rfl⟩
        · exact Or.inl rfl
      · rcases ih with hself | ⟨other, hmem, hhas⟩
        · exact Or.inl hself
        · exact Or.inr ⟨other, List.mem_cons_of_mem _ hmem, hhas⟩

/-! ## The table -/

/-- The last code point that can be a lower case of the run. -/
def CapitalRun.targetLast (run : CapitalRun) : Nat :=
  run.target + (run.last - run.first)

/-- A test that the runs hold no code point from `lo` to `hi` or, when only every second one of
these counts, that they hold none that counts. -/
def skips (lo hi : Nat) (second : Bool) : List CapitalRun → Bool
  | [] => true
  | run :: runs =>
    Nat.blt hi run.first ||
      ((Nat.blt run.last lo ||
          (second && Nat.beq run.step 2 && Nat.beq ((lo + run.first) % 2) 1)) &&
        skips lo hi second runs)

/-- A code point that is skipped has no other lower case: induction on the runs, which the test
goes over like the search for a lower case. -/
theorem lowerCode_eq_self {lo hi n : Nat} {second : Bool} {runs : List CapitalRun}
    (h : skips lo hi second runs = true) (hlo : lo ≤ n) (hhi : n ≤ hi)
    (hsecond : second = true → (n - lo) % 2 = 0) : lowerCode n runs = n := by
  induction runs with
  | nil => rfl
  | cons run runs ih =>
    simp only [skips, Bool.or_eq_true, Bool.and_eq_true, Nat.blt_eq, Nat.beq_eq] at h
    rw [lowerCode]
    rcases h with hbefore | ⟨hbehind | ⟨⟨htwice, hstep⟩, hodd⟩, hrest⟩
    · rw [if_pos (by omega)]
    · rw [if_neg (by omega : ¬ n ≤ run.last), ih hrest, ite_self]
    · have heven := hsecond htwice
      by_cases hfirst : n < run.first
      · rw [if_pos hfirst]
      · rw [if_neg hfirst, hstep, if_neg (by omega : ¬ (n - run.first) % 2 = 0), ih hrest, ite_self]

theorem CapitalRun.lowerOf_bounds {run : CapitalRun} {n : Nat} (h : run.Has n) :
    run.target ≤ run.lowerOf n ∧ run.lowerOf n ≤ run.targetLast ∧
      ((Nat.beq run.step 2 || Nat.beq run.first run.last) = true →
        (run.lowerOf n - run.target) % 2 = 0) := by
  obtain ⟨hfirst, hlast, hstep⟩ := h
  rw [lowerOf, targetLast]
  refine ⟨by omega, by omega, ?_⟩
  intro hsecond
  rw [Bool.or_eq_true, Nat.beq_eq, Nat.beq_eq] at hsecond
  rcases hsecond with htwo | hsingle
  · rw [htwo] at hstep
    omega
  · omega

/-- A test that no lower case of the run is in the other. -/
def CapitalRun.avoids (run : CapitalRun) (other : CodeRun) : Bool :=
  Nat.blt run.targetLast other.first || Nat.blt other.last run.target

theorem CapitalRun.not_mem_of_avoids {run : CapitalRun} {other : CodeRun} {n : Nat}
    (h : run.avoids other = true) (hn : run.Has n) :
    ¬ (other.first ≤ run.lowerOf n ∧ run.lowerOf n ≤ other.last) := by
  obtain ⟨hlo, hhi, -⟩ := lowerOf_bounds hn
  rw [avoids, Bool.or_eq_true, Nat.blt_eq, Nat.blt_eq] at h
  omega

/-- Code points that are no lower case: the blanks, the dotted capital I, and surrogates and all
above the last code point. -/
def excluded : List CodeRun := [
  ⟨0x9, 0xD⟩, ⟨0x20, 0x20⟩, ⟨0x85, 0x85⟩, ⟨0xA0, 0xA0⟩, ⟨0x130, 0x130⟩, ⟨0x1680, 0x1680⟩,
  ⟨0x2000, 0x200A⟩, ⟨0x2028, 0x2029⟩, ⟨0x202F, 0x202F⟩, ⟨0x205F, 0x205F⟩, ⟨0x3000, 0x3000⟩,
  ⟨0xD800, 0xDFFF⟩, ⟨0x110000, 0xFFFFFFFF⟩]

/-- No lower case of a capital is a capital, and none is excluded. -/
theorem capitals_settled :
    (capitals.all fun run =>
      skips run.target run.targetLast (Nat.beq run.step 2 || Nat.beq run.first run.last) capitals &&
        Nat.ble run.targetLast 0xFFFFFFFF && excluded.all run.avoids) = true := by
  decide +kernel

end Casing

open Casing

theorem exists_excluded_of_isBlank {c : Char} (h : isBlank c = true) :
    ∃ run ∈ excluded, run.first ≤ c.toNat ∧ c.toNat ≤ run.last := by
  simp only [isBlank, Bool.or_eq_true, Bool.and_eq_true, decide_eq_true_eq, beq_iff_eq] at h
  simp only [excluded, List.mem_cons, List.not_mem_nil, or_false, exists_eq_or_imp, exists_eq_left]
  omega

/-- The lower case of a capital has itself as lower case, and is no blank. -/
theorem settled_of_capital {run : CapitalRun} {n : Nat} (hrun : run ∈ capitals) (hn : run.Has n) :
    lowerChar (Char.ofNat (run.lowerOf n)) = [Char.ofNat (run.lowerOf n)] ∧
      isBlank (Char.ofNat (run.lowerOf n)) = false := by
  have htable := List.all_eq_true.1 capitals_settled run hrun
  rw [Bool.and_eq_true, Bool.and_eq_true, Nat.ble_eq] at htable
  obtain ⟨⟨hskips, hlast⟩, hexcluded⟩ := htable
  have havoids : ∀ other ∈ excluded,
      ¬ (other.first ≤ run.lowerOf n ∧ run.lowerOf n ≤ other.last) :=
    fun other hother => CapitalRun.not_mem_of_avoids (List.all_eq_true.1 hexcluded other hother) hn
  obtain ⟨hlo, hhi, hsecond⟩ := CapitalRun.lowerOf_bounds hn
  have hlowered : lowerCode (run.lowerOf n) capitals = run.lowerOf n :=
    lowerCode_eq_self hskips hlo hhi hsecond
  have hvalid : (run.lowerOf n).isValidChar := by
    have hsurrogate := havoids ⟨0xD800, 0xDFFF⟩ (by simp [excluded])
    have habove := havoids ⟨0x110000, 0xFFFFFFFF⟩ (by simp [excluded])
    simp only at hsurrogate habove
    rw [Nat.isValidChar]
    omega
  have hcode : (Char.ofNat (run.lowerOf n)).toNat = run.lowerOf n := by
    rw [Char.ofNat, dif_pos hvalid]
    rfl
  have hdotted : Char.ofNat (run.lowerOf n) ≠ 'İ' := by
    intro heq
    have hi := havoids ⟨0x130, 0x130⟩ (by simp [excluded])
    rw [← hcode, heq] at hi
    exact hi ⟨by decide, by decide⟩
  constructor
  · rw [lowerChar, if_neg hdotted, hcode, hlowered]
  · rw [Bool.eq_false_iff]
    intro hblank
    obtain ⟨other, hother, hmem⟩ := exists_excluded_of_isBlank hblank
    rw [hcode] at hmem
    exact havoids other hother hmem

/-! ## Characters and texts -/

/-- What stands in a lower case is in lower case, and is no blank unless it was there before. -/
theorem settled_of_mem_lowerChar {c d : Char} (h : d ∈ lowerChar c) :
    lowerChar d = [d] ∧ (isBlank d = true → d = c) := by
  by_cases hc : c = 'İ'
  · rw [lowerChar, if_pos hc, List.mem_cons, List.mem_singleton] at h
    subst hc
    rcases h with rfl | rfl
    · decide +kernel
    · decide +kernel
  rw [lowerChar, if_neg hc, List.mem_singleton] at h
  rcases lowerCode_cases c.toNat capitals with hself | ⟨run, hrun, hhas, hlowered⟩
  · -- the character is no capital
    rw [hself, Char.ofNat_toNat] at h
    subst h
    refine ⟨?_, fun _ => rfl⟩
    rw [lowerChar, if_neg hc, hself, Char.ofNat_toNat]
  · rw [hlowered] at h
    subst h
    obtain ⟨hlower, hblank⟩ := settled_of_capital hrun hhas
    refine ⟨hlower, fun h => ?_⟩
    rw [hblank] at h
    cases h

/-- A lower case is made of those of the characters, and final sigmas. -/
theorem mem_lowerAfter {before cs : List Char} {d : Char} (h : d ∈ lowerAfter before cs) :
    d = 'ς' ∨ ∃ c ∈ cs, d ∈ lowerChar c := by
  induction cs generalizing before with
  | nil => cases h
  | cons c cs ih =>
    rw [lowerAfter, List.mem_append] at h
    rcases h with h | h
    · split at h
      · next hc =>
        split at h
        · exact Or.inl (List.mem_singleton.1 h)
        · refine Or.inr ⟨c, List.mem_cons_self, ?_⟩
          rw [hc, List.mem_singleton.1 h]
          decide +kernel
      · exact Or.inr ⟨c, List.mem_cons_self, h⟩
    · exact (ih h).imp_right fun ⟨e, he, hd⟩ => ⟨e, List.mem_cons_of_mem _ he, hd⟩

theorem lowerChar_of_mem_lower {cs : List Char} {d : Char} (h : d ∈ lower cs) :
    lowerChar d = [d] := by
  rcases mem_lowerAfter h with rfl | ⟨c, -, hd⟩
  · decide +kernel
  · exact (settled_of_mem_lowerChar hd).1

/-- A text without capital sigmas is put in lower case character by character. -/
theorem lowerAfter_eq_map {f : Char → Char} {cs : List Char}
    (h : ∀ c ∈ cs, c ≠ 'Σ' ∧ lowerChar c = [f c]) (before : List Char) :
    lowerAfter before cs = cs.map f := by
  induction cs generalizing before with
  | nil => rfl
  | cons c cs ih =>
    obtain ⟨hsigma, hc⟩ := h c List.mem_cons_self
    simp only [lowerAfter, if_neg hsigma, hc, List.singleton_append, List.map_cons]
    rw [ih fun d hd => h d (List.mem_cons_of_mem _ hd)]

/-- A character that is its own lower case is no capital sigma. -/
theorem ne_sigma_of_lowerChar {c : Char} (h : lowerChar c = [c]) : c ≠ 'Σ' := by
  rintro rfl
  exact absurd h (by decide +kernel)

/-- A text of which every character is its own lower case stays as it is. -/
theorem lowerAfter_eq_self {cs : List Char} (h : ∀ c ∈ cs, lowerChar c = [c])
    (before : List Char) : lowerAfter before cs = cs := by
  have hmap := lowerAfter_eq_map (fun c hc => ⟨ne_sigma_of_lowerChar (h c hc), h c hc⟩) before
  rwa [List.map_id'] at hmap

/-- **Lower case is settled**: doing it again changes nothing. -/
theorem lower_lower (cs : List Char) : lower (lower cs) = lower cs :=
  lowerAfter_eq_self (fun _ => lowerChar_of_mem_lower) []

/-- A blank in the lower case of a text was there before. -/
theorem isBlank_of_mem_lower {cs : List Char} {d : Char} (h : d ∈ lower cs)
    (hblank : isBlank d = true) : d ∈ cs := by
  rcases mem_lowerAfter h with rfl | ⟨c, hc, hd⟩
  · exact absurd hblank (by decide)
  · rw [(settled_of_mem_lowerChar hd).2 hblank]
    exact hc

theorem lower_ne_nil {cs : List Char} (h : cs ≠ []) : lower cs ≠ [] := by
  cases cs with
  | nil => exact absurd rfl h
  | cons c cs =>
    rw [lower, lowerAfter]
    refine List.append_ne_nil_of_left_ne_nil ?_ _
    split
    · split <;> exact List.cons_ne_nil _ _
    · rw [lowerChar]
      split <;> exact List.cons_ne_nil _ _

/-! ## ASCII letters -/

theorem lowerChar_of_ascii : ∀ n < 128, lowerChar (Char.ofNat n) = [(Char.ofNat n).toLower] := by
  decide +kernel

theorem toLower_of_not_ascii {c : Char} (h : 128 ≤ c.toNat) : c.toLower = c := by
  refine dif_neg ?_
  rintro ⟨-, hlast⟩
  have hz : c.toNat ≤ 'Z'.toNat := hlast
  exact absurd (Nat.le_trans h hz) (by decide)

/-- A character that differs from its lower case at most in ASCII case. -/
theorem lowerChar_of_toLower {c d : Char} (h : c.toLower = d) (hd : lowerChar d = [d]) :
    lowerChar c = [d] := by
  by_cases hascii : c.toNat < 128
  · have hlower := lowerChar_of_ascii c.toNat hascii
    rwa [Char.ofNat_toNat, h] at hlower
  · rw [toLower_of_not_ascii (Nat.not_lt.1 hascii)] at h
    rwa [h]

/-- A text in lower case stays as it is if ASCII letters are put in lower case. -/
theorem map_toLower_lower (cs : List Char) : (lower cs).map Char.toLower = lower cs := by
  have hself : ∀ c ∈ lower cs, c.toLower = c := by
    intro c hc
    by_cases hascii : c.toNat < 128
    · have hlower := lowerChar_of_ascii c.toNat hascii
      rw [Char.ofNat_toNat, lowerChar_of_mem_lower hc] at hlower
      exact (List.cons.inj hlower).1.symm
    · exact toLower_of_not_ascii (Nat.not_lt.1 hascii)
  rw [List.map_congr_left hself, List.map_id']

/-- **A text that differs from a lower case only in the case of ASCII letters has this lower
case.** -/
theorem lower_of_eqIgnoringAsciiCase {cs ds : List Char}
    (h : eqIgnoringAsciiCase cs (lower ds) = true) : lower cs = lower ds := by
  rw [eqIgnoringAsciiCase, beq_iff_eq, map_toLower_lower] at h
  rw [← h]
  refine lowerAfter_eq_map ?_ []
  intro c hc
  have hsettled : lowerChar c.toLower = [c.toLower] :=
    lowerChar_of_mem_lower (h ▸ List.mem_map_of_mem hc)
  refine ⟨?_, lowerChar_of_toLower rfl hsettled⟩
  rintro rfl
  exact absurd hsettled (by decide +kernel)

end ChatCommands.Text
