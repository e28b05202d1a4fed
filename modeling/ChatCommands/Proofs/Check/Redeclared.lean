import ChatCommands.Proofs.Check.Listing
import ChatCommands.Proofs.Check.Verdict
import ChatCommands.Proofs.Text.LowerCase

/-!
# Where a key is declared again

A key that makes the check fail is declared by two strings of the file or more, all of which have
it as their lower case (`Check.declarers`). The search for the second of them compares texts up to
the case of ASCII letters only. So it passes over a declarer that differs from the key in the case
of another letter, and finds the second declarer exactly if the first two differ from the key in
the case of ASCII letters at most (`Check.redeclaration_by_ascii_case`).
-/

namespace ChatCommands.Check

open Json Text

/-- The strings that declare a key, which is their lower case. -/
def declarers (key : String) (sites : List Site) : List Site :=
  sites.filter fun s => declaresKeys s.member && decide (lower s.raw = key.toList)

/-! ## The second of a list -/

/-- What two lists are taken to decides which elements come second among those with a property. -/
theorem second_of_map_eq {α β γ δ : Type} {f : α → γ × δ} {g : β → γ × δ} {xs : List α}
    {ys : List β} (h : xs.map f = ys.map g) (p : δ → Bool) :
    (xs.filter fun x => p (f x).2)[1]?.map (fun x => (f x).1) =
      (ys.filter fun y => p (g y).2)[1]?.map fun y => (g y).1 := by
  have hsecond := congrArg (fun zs => (zs.filter fun z => p z.2)[1]?.map Prod.fst) h
  simp only [List.filter_map, List.getElem?_map, Option.map_map] at hsecond
  exact hsecond

/-- The second element with a property is the second of all exactly if the first two have it, in a
list without repetitions. -/
theorem filter_second_iff {α β : Type} {f : α → β} {p : α → Bool} {xs : List α}
    (distinct : (xs.map f).Nodup) (two : 2 ≤ xs.length) :
    (xs.filter p)[1]?.map f = xs[1]?.map f ↔ ∀ x ∈ xs.take 2, p x = true := by
  match xs, two with
  | a :: b :: rest, _ =>
    have hlater : ∀ i : Nat, (rest.filter p)[i]?.map f ≠ some (f b) := by
      intro i h
      obtain ⟨x, hx, hfx⟩ := Option.map_eq_some_iff.1 h
      have hrest : f b ∉ rest.map f := (List.nodup_cons.1 (List.nodup_cons.1 distinct).2).1
      exact hrest (hfx ▸ List.mem_map_of_mem (List.mem_of_mem_filter (List.mem_of_getElem? hx)))
    have htake : (∀ x ∈ (a :: b :: rest).take 2, p x = true) ↔ p a = true ∧ p b = true := by
      simp
    rw [htake]
    by_cases ha : p a = true
    · by_cases hb : p b = true
      · simp [ha, hb]
      · simpa [List.filter_cons, ha, hb] using hlater 0
    · by_cases hb : p b = true
      · simpa [List.filter_cons, ha, hb] using hlater 0
      · simpa [List.filter_cons, ha, hb] using hlater 1

/-! ## Declarers -/

section

variable {source : String} {items : List Json} {sites : List Site}

/-- A key that is declared twice has two declarers or more. -/
theorem two_le_declarers {ds : List Declaration} {key : String}
    (perm : (declaredIn (.array items)).Perm (ds.flatMap Declaration.names))
    (laid : LaidOut 0 source.toList (tokens none (.array items)) sites)
    (count : 1 < (ds.flatMap Declaration.keys).count key) : 2 ≤ (declarers key sites).length := by
  have hdeclared : declaredIn (.array items) =
      (sites.filter fun s => declaresKeys s.member).map fun s => String.ofList s.raw := by
    rw [declaredIn, ← laid.map_sites, List.filter_map, List.map_map]
    rfl
  have hkeys : ds.flatMap Declaration.keys =
      (ds.flatMap Declaration.names).map fun raw => String.ofList (lower raw.toList) := by
    rw [List.map_flatMap]
    rfl
  rw [hkeys, List.count, List.countP_map, ← perm.countP_eq, hdeclared, List.countP_map,
    List.countP_filter, List.countP_eq_length_filter] at count
  have hdeclarers : declarers key sites =
      sites.filter fun s => ((fun s => s == key) ∘ (fun raw => String.ofList (lower raw.toList)) ∘
        (fun s => String.ofList s.raw)) s && declaresKeys s.member := by
    refine List.filter_congr fun s _ => ?_
    rw [Bool.and_comm, Function.comp_apply, Function.comp_apply, String.toList_ofList, ofList_beq]
  rw [hdeclarers]
  exact count

/-- A string that declares keys and is the key up to the case of ASCII letters is a declarer. -/
theorem filter_declarers {key : String} (folded : ∃ cs, key.toList = lower cs) :
    (sites.filter fun s => declaresKeys s.member).filter
        (fun s => eqIgnoringAsciiCase s.raw key.toList) =
      (declarers key sites).filter fun s => eqIgnoringAsciiCase s.raw key.toList := by
  obtain ⟨cs, hcs⟩ := folded
  rw [declarers, List.filter_filter, List.filter_filter]
  refine List.filter_congr fun s _ => ?_
  cases hequal : eqIgnoringAsciiCase s.raw key.toList with
  | false => rfl
  | true =>
    have hraw : lower s.raw = key.toList := by
      rw [hcs] at hequal ⊢
      exact lower_of_eqIgnoringAsciiCase hequal
    rw [decide_eq_true hraw, Bool.and_true]

/-- The search in a listing goes over the strings that declare keys. -/
theorem redeclaration?_of_laidOut (flat : ∀ item ∈ items, IsFlatRecord item)
    (laid : LaidOut 0 source.toList (tokens none (.array items)) sites) (key : String) :
    (redeclaration? source key).map Literal.span =
      ((sites.filter fun s => declaresKeys s.member).filter fun s =>
        eqIgnoringAsciiCase s.raw key.toList)[1]?.map Site.span := by
  rw [redeclaration?, Literal.all_eq_scan]
  exact second_of_map_eq (declaring_of_laidOut laid (namedLast_listing flat)) fun raw =>
    eqIgnoringAsciiCase raw key.toList

end

theorem exists_lower_of_mem_keys {ds : List Declaration} {key : String}
    (h : key ∈ ds.flatMap Declaration.keys) : ∃ cs, key.toList = lower cs := by
  obtain ⟨d, -, hkey⟩ := List.mem_flatMap.1 h
  obtain ⟨raw, -, rfl⟩ := List.mem_map.1 hkey
  exact ⟨raw.toList, String.toList_ofList⟩

/-- A file that is rejected for a key lists declarations that have the key more than once. -/
theorem count_of_rejected {source : String} {duplicate : DuplicateKey}
    (h : commands source = .error (.duplicateKey duplicate)) :
    ∃ ds, Declaration.listOfText? source = some ds ∧
      1 < (ds.flatMap Declaration.keys).count duplicate.key := by
  cases hds : Declaration.listOfText? source with
  | none =>
    rw [commands, hds] at h
    cases h
  | some ds =>
    refine ⟨ds, rfl, ?_⟩
    rcases commands_cases hds with
      ⟨_, _, _, _, -, -, -, hcommands⟩ | ⟨-, _, hcount, hcommands⟩ | ⟨-, -, _, -, hcommands⟩
    all_goals
      rw [hcommands] at h
      cases h
    exact hcount

/-! ## The second declarer -/

/-- **Where a key is found again.** If a file without escapes lists declarations, and is rejected
for a key that is there more than once, then two strings or more declare this key. What is found is
the second among those that equal the key up to the case of ASCII letters. It is the second string
that declares the key exactly if the first two equal the key in this way. -/
theorem redeclaration_by_ascii_case {source : String} {json : Json} {duplicate : DuplicateKey}
    (parsed : Json.ofText? source = some json) (listing : IsListing json)
    (unescaped : '\\' ∉ source.toList)
    (rejected : commands source = .error (.duplicateKey duplicate)) :
    (∃ sites, LaidOut 0 source.toList (tokens none json) sites) ∧
    ∀ sites, LaidOut 0 source.toList (tokens none json) sites →
      let found := (redeclaration? source duplicate.key).map Literal.span
      let all := declarers duplicate.key sites
      let isFound := fun s : Site => eqIgnoringAsciiCase s.raw duplicate.key.toList
      2 ≤ all.length ∧
      found = (all.filter isFound)[1]?.map Site.span ∧
      (found = all[1]?.map Site.span ↔ ∀ s ∈ all.take 2, isFound s = true) := by
  obtain ⟨items, rfl, hrecords⟩ := listing
  obtain ⟨ds, hds, hcount⟩ := count_of_rejected rejected
  have hread : items.mapM Declaration.ofJson? = some ds := by
    rw [Declaration.listOfText?, parsed] at hds
    exact hds
  obtain ⟨hflat, hperm⟩ := declarations_of_listing hrecords hread
  refine ⟨exists_laidOut parsed unescaped (namedLast_listing hflat).atomless, ?_⟩
  intro sites hlaid found all isFound
  have hplain : IsPlain (.array items) := by
    rw [IsPlain, contents, List.forall_mem_map]
    exact fun p hp => (String.toList_ofList (l := p.1)).symm ▸ hlaid.plain p hp
  have htwo : 2 ≤ all.length := two_le_declarers (hperm hplain) hlaid hcount
  have hfolded : ∃ cs, duplicate.key.toList = lower cs :=
    exists_lower_of_mem_keys (List.count_pos_iff.1 (Nat.lt_of_succ_lt hcount))
  have hfound : found = (all.filter isFound)[1]?.map Site.span := by
    rw [← filter_declarers hfolded]
    exact redeclaration?_of_laidOut hflat hlaid duplicate.key
  have hdistinct : (all.map Site.span).Nodup :=
    hlaid.nodup_spans.sublist (List.filter_sublist.map Site.span)
  refine ⟨htwo, hfound, ?_⟩
  rw [hfound]
  exact filter_second_iff hdistinct htwo

theorem redeclaration_by_ascii_case_alias :
    let source := "[\x7b\"aliases\": [\"M\"], \"key\": \"mute\"\x7d, \x7b\"key\": \"m\"\x7d]"
    let json := Json.array [
      .object [("aliases".toList, .array [.string ['M']]), ("key".toList, .string "mute".toList)],
      .object [("key".toList, .string ['m'])]]
    Json.ofText? source = some json ∧ IsListing json ∧ '\\' ∉ source.toList ∧
      commands source = .error (.duplicateKey ⟨"m", "mute", "m"⟩) ∧
      (redeclaration? source "m").map Literal.span = some ⟨45, 46⟩ ∧
      ∃ sites, LaidOut 0 source.toList (tokens none json) sites ∧
        (declarers "m" sites)[1]?.map Site.span = some ⟨45, 46⟩ := by
  intro source json
  have parsed : Json.ofText? source = some json := by
    dsimp only [source]
    rfl
  have listing : IsListing json := by
    refine ⟨_, rfl, List.forall_mem_cons.2 ⟨⟨_, rfl, by decide +kernel⟩, ?_⟩⟩
    exact List.forall_mem_singleton.2 ⟨_, rfl, by decide +kernel⟩
  have unescaped : '\\' ∉ source.toList := by decide +kernel
  have rejected : commands source = .error (.duplicateKey ⟨"m", "mute", "m"⟩) := by
    decide +kernel
  have hfound : (redeclaration? source "m").map Literal.span = some ⟨45, 46⟩ := by decide +kernel
  obtain ⟨⟨sites, hlaid⟩, hsites⟩ := redeclaration_by_ascii_case parsed listing unescaped rejected
  obtain ⟨-, -, hsecond⟩ := hsites sites hlaid
  refine ⟨parsed, listing, unescaped, rejected, hfound, sites, hlaid, ?_⟩
  have hascii : ∀ p ∈ strings (tokens none json), declaresKeys p.2 = true →
      lower p.1 = ['m'] → eqIgnoringAsciiCase p.1 ['m'] = true := by decide +kernel
  rw [← hsecond.2, hfound]
  intro s hs
  obtain ⟨hmem, hdeclarer⟩ := List.mem_filter.1 (List.mem_of_mem_take hs)
  rw [Bool.and_eq_true, decide_eq_true_iff] at hdeclarer
  exact hascii (s.raw, s.member) (hlaid.map_sites ▸ List.mem_map_of_mem hmem) hdeclarer.1
    hdeclarer.2

/-- Two strings declare a key, and none of them is found a second time: the search takes letters
beyond ASCII as they are. -/
theorem not_redeclaration_of_accent :
    let source := "[\x7b\"key\":\"É\"\x7d,\x7b\"key\":\"é\"\x7d]"
    let json := Json.array [
      .object [("key".toList, .string ['É'])], .object [("key".toList, .string ['é'])]]
    Json.ofText? source = some json ∧ IsListing json ∧ '\\' ∉ source.toList ∧
      commands source = .error (.duplicateKey ⟨"é", "é", "é"⟩) ∧
      (∃ sites, LaidOut 0 source.toList (tokens none json) sites ∧
        (declarers "é" sites).map Site.raw = [['É'], ['é']]) ∧
      redeclaration? source "é" = none := by
  intro source json
  have parsed : Json.ofText? source = some json := by
    dsimp only [source]
    rfl
  have listing : IsListing json := by
    refine ⟨_, rfl, List.forall_mem_cons.2 ⟨⟨_, rfl, by decide +kernel⟩, ?_⟩⟩
    exact List.forall_mem_singleton.2 ⟨_, rfl, by decide +kernel⟩
  have unescaped : '\\' ∉ source.toList := by decide +kernel
  have hflat : ∀ item ∈ [Json.object [("key".toList, .string ['É'])],
      .object [("key".toList, .string ['é'])]], IsFlatRecord item := by
    refine List.forall_mem_cons.2 ⟨⟨_, rfl, List.forall_mem_singleton.2 ⟨_, .text _⟩⟩, ?_⟩
    exact List.forall_mem_singleton.2 ⟨_, rfl, List.forall_mem_singleton.2 ⟨_, .text _⟩⟩
  obtain ⟨sites, hlaid⟩ := exists_laidOut parsed unescaped (namedLast_listing hflat).atomless
  have hdeclarers : (declarers "é" sites).map Site.raw =
      ((strings (tokens none json)).filter fun p =>
        declaresKeys p.2 && decide (lower p.1 = "é".toList)).map Prod.fst := by
    rw [← hlaid.map_sites, List.filter_map, List.map_map]
    rfl
  refine ⟨parsed, listing, unescaped, by decide +kernel, ⟨sites, hlaid, ?_⟩, by decide +kernel⟩
  rw [hdeclarers]
  decide +kernel

end ChatCommands.Check
