import ChatCommands.Catalog
import ChatCommands.Proofs.Text.Words

/-!
# Histories of a catalog

What a catalog holds after any number of changes, each of which loads a text or inserts a bundle:
`Catalog.looked_up_after_changes`. For each locale and key it is the value from the last change that
gave one (`Catalog.lastGiven?`). A change that fails is as good as none, so it is enough to know the
bundles of the changes that succeed (`Catalog.Change.bundle?`), and what inserting one of them does
to a catalog (`Catalog.message?_insert`, `Catalog.mem_locales_insert`).
-/

namespace ChatCommands.Catalog

/-- Something that is done to a catalog. -/
inductive Change where
  | load (text : String)
  | insert (bundle : Bundle)

namespace Change

/-- The catalog after a change. A text that cannot be loaded leaves it as it was. -/
def apply (c : Catalog) : Change → Catalog
  | load text =>
    match c.load text with
    | .ok loaded => loaded
    | .error _ => c
  | insert bundle => c.insert bundle

/-- The bundle that a change adds, if it succeeds: a text has to hold one whose locale is not
blank. -/
def bundle? : Change → Option Bundle
  | load text => (Bundle.ofText? text).filter fun bundle => Text.trim bundle.locale.toList ≠ []
  | insert bundle => some bundle

/-- The value that a change gives to a key of a locale, if it does. -/
def gives? (locale key : String) (change : Change) : Option String :=
  change.bundle?.bind fun bundle =>
    if bundle.locale = locale then bundle.messages.get? key else none

end Change

/-- The catalog after changes to an empty one. -/
def after (changes : List Change) : Catalog :=
  changes.foldl Change.apply empty

/-- The value that the last change to give one gave to a key of a locale. -/
def lastGiven? (changes : List Change) (locale key : String) : Option String :=
  changes.reverse.findSome? (Change.gives? locale key)

/-! ## Single changes -/

/-- A bundle changes the messages of its own locale, and only those that it holds. -/
theorem message?_insert (c : Catalog) (bundle : Bundle) (locale key : String) :
    (c.insert bundle).message? locale key =
      (if bundle.locale = locale then bundle.messages.get? key else none).or
        (c.message? locale key) := by
  rw [message?, insert, Dictionary.get?_put]
  by_cases h : locale = bundle.locale
  · subst h
    rw [if_pos rfl, if_pos rfl, Option.bind_some, Dictionary.get?_putAll, message?]
    cases c.bundles.get? bundle.locale <;> rfl
  · rw [if_neg h, if_neg (Ne.symm h), Option.none_or, message?]

theorem mem_locales_iff {c : Catalog} {locale : String} :
    locale ∈ c.locales ↔ (c.bundles.get? locale).isSome :=
  Dictionary.mem_keys_iff

/-- A bundle adds its locale, even if it holds no message. -/
theorem mem_locales_insert {c : Catalog} {bundle : Bundle} {locale : String} :
    locale ∈ (c.insert bundle).locales ↔ bundle.locale = locale ∨ locale ∈ c.locales := by
  rw [mem_locales_iff, mem_locales_iff, insert, Dictionary.get?_put]
  by_cases h : locale = bundle.locale
  · simp [h]
  · simp [h, Ne.symm h]

theorem load_cases (c : Catalog) (text : String) :
    (Bundle.ofText? text = none ∧ c.load text = .error .malformed) ∨
    ∃ bundle, Bundle.ofText? text = some bundle ∧
      (Text.trim bundle.locale.toList = [] ∧ c.load text = .error .emptyLocale ∨
        Text.trim bundle.locale.toList ≠ [] ∧ c.load text = .ok (c.insert bundle)) := by
  rw [load]
  cases Bundle.ofText? text with
  | none => exact Or.inl ⟨rfl, rfl⟩
  | some bundle =>
    refine Or.inr ⟨bundle, rfl, ?_⟩
    simp only [ne_eq, Text.trim_eq_nil_iff]
    cases hblank : Text.isBlankText bundle.locale.toList with
    | true => exact Or.inl ⟨rfl, rfl⟩
    | false => exact Or.inr ⟨by simp, rfl⟩

namespace Change

/-- A change comes to inserting its bundle, or to nothing. -/
theorem apply_eq (c : Catalog) (change : Change) :
    change.apply c = match change.bundle? with
      | some bundle => c.insert bundle
      | none => c := by
  cases change with
  | insert bundle => rfl
  | load text =>
    rw [apply, bundle?]
    rcases c.load_cases text with
      ⟨hnone, hload⟩ | ⟨bundle, hsome, ⟨hblank, hload⟩ | ⟨hlocale, hload⟩⟩
    · rw [hnone, hload]
      rfl
    · rw [hsome, hload, Option.filter_some_neg (by simpa using hblank)]
    · rw [hsome, hload, Option.filter_some_pos (by simpa using hlocale)]

theorem message?_apply (c : Catalog) (change : Change) (locale key : String) :
    (change.apply c).message? locale key =
      (change.gives? locale key).or (c.message? locale key) := by
  rw [apply_eq, gives?]
  cases change.bundle? with
  | none => rfl
  | some bundle => exact c.message?_insert bundle locale key

theorem mem_locales_apply {c : Catalog} {change : Change} {locale : String} :
    locale ∈ (change.apply c).locales ↔
      (∃ bundle, change.bundle? = some bundle ∧ bundle.locale = locale) ∨ locale ∈ c.locales := by
  rw [apply_eq]
  cases change.bundle? with
  | none => simp
  | some bundle => simp [mem_locales_insert]

end Change

/-! ## Any number of changes -/

/-- What changes leave of a catalog is what none of them gave: induction on the changes. -/
theorem message?_foldl (c : Catalog) (changes : List Change) (locale key : String) :
    (changes.foldl Change.apply c).message? locale key =
      (lastGiven? changes locale key).or (c.message? locale key) := by
  induction changes generalizing c with
  | nil => rfl
  | cons change rest ih =>
    have hlast : lastGiven? (change :: rest) locale key =
        (lastGiven? rest locale key).or (change.gives? locale key) := by
      rw [lastGiven?, List.reverse_cons, List.findSome?_append, List.findSome?_singleton,
        lastGiven?]
    rw [List.foldl_cons, ih, Change.message?_apply, hlast, Option.or_assoc]

theorem mem_locales_foldl {c : Catalog} {changes : List Change} {locale : String} :
    locale ∈ (changes.foldl Change.apply c).locales ↔
      (∃ change ∈ changes, ∃ bundle, change.bundle? = some bundle ∧ bundle.locale = locale) ∨
        locale ∈ c.locales := by
  induction changes generalizing c with
  | nil => simp
  | cons change rest ih =>
    rw [List.foldl_cons, ih, Change.mem_locales_apply, List.exists_mem_cons_iff, or_assoc]
    exact or_left_comm

/-- A text that cannot be loaded may as well be left out of a history. -/
theorem after_drop_failed {before rest : List Change} {text : String} {error : BundleError}
    (failed : (after before).load text = .error error) :
    after (before ++ .load text :: rest) = after (before ++ rest) := by
  have happly : (Change.load text).apply (after before) = after before := by
    rw [Change.apply, failed]
  rw [after, List.foldl_append, List.foldl_cons, ← after, happly, after, after, List.foldl_append]

/-- **Lookups after any history** of an empty catalog. The template for a key is the value that the
last change gave to it in the locale or, if none did, the one that the last change gave to it in the
default locale; without either, the key renders as itself. There is a locale for each bundle that
was added, once, whether or not the bundle holds a message. Texts fail to load exactly if they hold
no bundle or one with a blank locale, and those that do make no difference. -/
theorem looked_up_after_changes (changes : List Change) :
    (∀ locale key, (after changes).template? locale key =
      (lastGiven? changes locale key).or (lastGiven? changes "en" key)) ∧
    (∀ locale key, lastGiven? changes locale key = none → lastGiven? changes "en" key = none →
      ∀ args, (after changes).render locale key args = key) ∧
    (after changes).locales.Nodup ∧
    (∀ locale, locale ∈ (after changes).locales ↔
      ∃ change ∈ changes, ∃ bundle, change.bundle? = some bundle ∧ bundle.locale = locale) ∧
    (∀ text, ((after changes).load text = .error .malformed ↔ Bundle.ofText? text = none) ∧
      ((after changes).load text = .error .emptyLocale ↔
        ∃ bundle, Bundle.ofText? text = some bundle ∧ Text.trim bundle.locale.toList = [])) ∧
    ∀ text error, (after changes).load text = .error error →
      ∀ rest, after (changes ++ .load text :: rest) = after (changes ++ rest) := by
  have hmessage : ∀ locale key,
      (after changes).message? locale key = lastGiven? changes locale key := by
    intro locale key
    rw [after, message?_foldl]
    exact Option.or_none
  have htemplate : ∀ locale key, (after changes).template? locale key =
      (lastGiven? changes locale key).or (lastGiven? changes "en" key) := by
    intro locale key
    rw [template?, hmessage, hmessage, defaultLocale]
  refine ⟨htemplate, ?_, Dictionary.nodup_keys _, ?_, ?_, ?_⟩
  · intro locale key hlocale hdefault args
    rw [render, htemplate, hlocale, hdefault]
    rfl
  · intro locale
    rw [after, mem_locales_foldl]
    exact or_iff_left List.not_mem_nil
  · intro text
    rcases (after changes).load_cases text with
      ⟨hnone, hload⟩ | ⟨bundle, hsome, ⟨hblank, hload⟩ | ⟨hlocale, hload⟩⟩
    · simp [hnone, hload]
    · simp [hsome, hload, hblank]
    · simp [hsome, hload, hlocale]
  · intro text error hfailed rest
    exact after_drop_failed hfailed

theorem looked_up_after_changes_mixed :
    let changes : List Change := [
      .load "\x7b\"locale\":\"de\",\"messages\":\x7b\x7d\x7d",
      .insert { locale := "en", messages := .ofList [("a", "A"), ("b", "B")] },
      .load "\x7b\"locale\":\"ru\",\"messages\":\x7b\"a\":\"x\",\"a\":\"y\"\x7d\x7d",
      .load "\x7b\"locale\":\" \",\"messages\":\x7b\"b\":\"z\"\x7d\x7d",
      .insert { locale := "en", messages := .ofList [("b", "C")] }]
    (after changes).template? "ru" "a" = some "y" ∧ (after changes).template? "ru" "b" = some "C" ∧
      (after changes).template? "de" "a" = some "A" ∧
      (after changes).render "ru" "c" ["1"] = "c" ∧ "de" ∈ (after changes).locales := by
  intro changes
  obtain ⟨htemplate, hrender, -, hlocales, -, -⟩ := looked_up_after_changes changes
  have hgiven : lastGiven? changes "ru" "a" = some "y" ∧ lastGiven? changes "ru" "b" = none ∧
      lastGiven? changes "de" "a" = none ∧ lastGiven? changes "ru" "c" = none ∧
      (Change.bundle? changes[0]).map Bundle.locale = some "de" := by
    decide +kernel
  obtain ⟨ha, hb, hde, hc, hempty⟩ := hgiven
  have hdefault : lastGiven? changes "en" "a" = some "A" ∧
      lastGiven? changes "en" "b" = some "C" ∧ lastGiven? changes "en" "c" = none := by
    decide +kernel
  refine ⟨by rw [htemplate, ha, Option.some_or], by rw [htemplate, hb, hdefault.2.1]; rfl,
    by rw [htemplate, hde, hdefault.1]; rfl, hrender "ru" "c" hc hdefault.2.2 ["1"], ?_⟩
  exact (hlocales "de").2
    ⟨_, List.mem_cons_self, Option.map_eq_some_iff.1 hempty⟩

end ChatCommands.Catalog
