import ChatCommands.Proofs.Json.Fields
import ChatCommands.Proofs.Text.Decimal
import ChatCommands.Settings

/-!
# Guilds with settings of their own

A settings document may have an entry for a guild, under its number in decimal digits
(`Settings.EntryOf`). An entry holds as a whole: the configured defaults hold in the guilds that
have none, and what an entry leaves out is not taken from them but is what every record of settings
has in its absence (`Settings.overridden_as_a_whole`).

A number is written with one run of digits only, so members of different names are entries of
different guilds (`Settings.guildNumber?_eq_iff`). Of members of the same name the last is the
entry, which is what the dictionary of the guilds keeps (`Settings.get?_of_guilds?`).
-/

namespace ChatCommands

open Json

/-! ## Records of settings -/

def GuildSettings.fieldNames : List String :=
  ["prefixes", "locale"]

def Settings.fieldNames : List String :=
  ["defaults", "suggestion", "edit_retry", "reply_satisfies_first_argument", "guilds"]

/-- What the settings of a guild are read from. -/
structure GuildSettings.ReadFrom (record : Json) (g : GuildSettings) : Prop where
  sigils : Reads fieldNames record "prefixes" (list? text?) ["!"] g.sigils
  locale : Reads fieldNames record "locale" text? "en" g.locale

theorem GuildSettings.readFrom_of_ofJson? {record : Json} {g : GuildSettings}
    (h : ofJson? record = some g) : ReadFrom record g := by
  unfold ofJson? at h
  obtain ⟨fields, hfields, h⟩ := Option.bind_eq_some_iff.1 h
  split at h
  · next sigils locale =>
    obtain ⟨_, hsigils, h⟩ := Option.bind_eq_some_iff.1 h
    obtain ⟨_, hlocale, h⟩ := Option.bind_eq_some_iff.1 h
    cases h
    exact ⟨reads_of_fields? (by decide) hfields (i := 0) rfl rfl hsigils,
      reads_of_fields? (by decide) hfields (i := 1) rfl rfl hlocale⟩
  · cases h

namespace Settings

/-- What settings are read from. -/
structure ReadFrom (doc : Json) (s : Settings) : Prop where
  defaults : Reads fieldNames doc "defaults" GuildSettings.ofJson? {} s.defaults
  maxDistance :
    Reads fieldNames doc "suggestion" (single? "max_distance" 3 word64?) 3 s.maxDistance
  editLifetime :
    Reads fieldNames doc "edit_retry" (single? "ttl_secs" (some 600) (nullable? word64?))
      (some 600) s.editLifetime
  replyIsFirstArgument :
    Reads fieldNames doc "reply_satisfies_first_argument" bool? true s.replyIsFirstArgument
  guilds : Reads fieldNames doc "guilds" guilds? .empty s.guilds

theorem readFrom_of_ofJson? {doc : Json} {s : Settings} (h : ofJson? doc = some s) :
    ReadFrom doc s := by
  unfold ofJson? at h
  obtain ⟨fields, hfields, h⟩ := Option.bind_eq_some_iff.1 h
  split at h
  · obtain ⟨_, hdefaults, h⟩ := Option.bind_eq_some_iff.1 h
    obtain ⟨_, hdistance, h⟩ := Option.bind_eq_some_iff.1 h
    obtain ⟨_, hlifetime, h⟩ := Option.bind_eq_some_iff.1 h
    obtain ⟨_, hreply, h⟩ := Option.bind_eq_some_iff.1 h
    obtain ⟨_, hguilds, h⟩ := Option.bind_eq_some_iff.1 h
    cases h
    exact ⟨reads_of_fields? (by decide) hfields (i := 0) rfl rfl hdefaults,
      reads_of_fields? (by decide) hfields (i := 1) rfl rfl hdistance,
      reads_of_fields? (by decide) hfields (i := 2) rfl rfl hlifetime,
      reads_of_fields? (by decide) hfields (i := 3) rfl rfl hreply,
      reads_of_fields? (by decide) hfields (i := 4) rfl rfl hguilds⟩
  · cases h

/-- Settings that are loaded were read from the document that the text is. -/
theorem exists_readFrom_of_load {text : String} {s : Settings} (h : load text = .ok s) :
    ∃ doc, Json.ofText? text = some doc ∧ ReadFrom doc s := by
  rw [load] at h
  split at h
  · cases h
  · next read hread =>
    split at h
    · cases h
    · cases h
      obtain ⟨doc, hdoc, hjson⟩ := Option.bind_eq_some_iff.1 hread
      exact ⟨doc, hdoc, readFrom_of_ofJson? hjson⟩

/-! ## Entries of guilds -/

/-- The entry that a document has for a guild: of the members of its guilds that have the number of
this guild for a name, the last. -/
def EntryOf (doc : Json) (guild : Nat) (entry : Json) : Prop :=
  ∃ members, doc.Gives fieldNames "guilds" (.object members) ∧
    members.reverse.lookup (toString guild).toList = some entry

/-- A guild number is read from one name only. -/
theorem guildNumber?_eq_iff {raw : List Char} {id : Nat} (h : guildNumber? raw = some id)
    (guild : Nat) : raw = (toString guild).toList ↔ id = guild := by
  rw [guildNumber?] at h
  split at h
  · next hnumeral =>
    have hraw := (Text.ofDigits?_eq_some_iff.1 h).1.eq_toDigits hnumeral
    have hstring : (toString guild).toList = Nat.toDigits 10 guild := by simp
    rw [hraw, hstring]
    exact ⟨Text.toDigits_inj, congrArg _⟩
  · cases h

/-- If the entries of two lists go together, key by key and value by value, then so do the values
that they have for a key: induction on the entries. -/
theorem lookup_of_forall₂ {α β γ δ : Type} [BEq α] [LawfulBEq α] [BEq γ] [LawfulBEq γ]
    {R : β → δ → Prop} {key : α} {key' : γ} {xs : List (α × β)} {ys : List (γ × δ)}
    (h : List.Forall₂ (fun x y => (x.1 = key ↔ y.1 = key') ∧ R x.2 y.2) xs ys) :
    (xs.lookup key = none ∧ ys.lookup key' = none) ∨
    ∃ v v', xs.lookup key = some v ∧ ys.lookup key' = some v' ∧ R v v' := by
  induction h with
  | nil => exact Or.inl ⟨rfl, rfl⟩
  | @cons x y _ _ hxy _ ih =>
    obtain ⟨k, v⟩ := x
    obtain ⟨k', v'⟩ := y
    obtain ⟨hkeys, hvalues⟩ := hxy
    by_cases hkey : k = key
    · obtain rfl : k = key := hkey
      obtain rfl : k' = key' := hkeys.1 rfl
      exact Or.inr ⟨v, v', List.lookup_cons_self, List.lookup_cons_self, hvalues⟩
    · have hbeq : (key == k) = false := beq_false_of_ne (Ne.symm hkey)
      have hbeq' : (key' == k') = false := beq_false_of_ne (Ne.symm (mt hkeys.2 hkey))
      rw [List.lookup_cons, List.lookup_cons, hbeq, hbeq']
      exact ih

/-- A guild has settings of its own exactly if there is a member of its name, and they are read from
the last one. -/
theorem get?_of_guilds? {members : List (List Char × Json)} {guilds : Dictionary Nat GuildSettings}
    (h : guilds? (.object members) = some guilds) (guild : Nat) :
    (members.reverse.lookup (toString guild).toList = none ∧ guilds.get? guild = none) ∨
    ∃ entry g, members.reverse.lookup (toString guild).toList = some entry ∧
      guilds.get? guild = some g ∧ GuildSettings.ofJson? entry = some g := by
  obtain ⟨entries, hentries, h⟩ := Option.bind_eq_some_iff.1 h
  cases h
  rw [Dictionary.get?_ofList]
  refine lookup_of_forall₂ (List.forall₂_reverse_iff.2 ((forall₂_of_mapM hentries).imp ?_))
  rintro ⟨raw, entry⟩ ⟨id, g⟩ hread
  obtain ⟨_, hid, hread⟩ := Option.bind_eq_some_iff.1 hread
  obtain ⟨_, hg, hread⟩ := Option.bind_eq_some_iff.1 hread
  cases hread
  exact ⟨guildNumber?_eq_iff hid guild, hg⟩

section Guild

variable {doc : Json} {s : Settings} {guild : Nat}

/-- In a guild with an entry its own settings hold, and these are read from the entry. -/
theorem ReadFrom.guild_of_entryOf (h : ReadFrom doc s) {entry : Json}
    (hentry : EntryOf doc guild entry) : GuildSettings.ReadFrom entry (s.guild guild) := by
  obtain ⟨members, hgiven, hlast⟩ := hentry
  rcases get?_of_guilds? (h.guilds.given _ hgiven) guild with ⟨hnone, -⟩ |
    ⟨last, g, hlast', hown, hread⟩
  · rw [hlast] at hnone
    cases hnone
  · cases hlast.symm.trans hlast'
    rw [Settings.guild, hown]
    exact GuildSettings.readFrom_of_ofJson? hread

/-- In a guild without an entry the defaults hold. -/
theorem ReadFrom.guild_of_forall_not_entryOf (h : ReadFrom doc s)
    (hnone : ∀ entry, ¬ EntryOf doc guild entry) : s.guild guild = s.defaults := by
  have hown : s.guilds.get? guild = none := by
    by_cases hgiven : ∃ value, doc.Gives fieldNames "guilds" value
    · obtain ⟨value, hgiven⟩ := hgiven
      have hread := h.guilds.given value hgiven
      -- only an object is read as the guilds
      cases value with
      | object members =>
        rcases get?_of_guilds? hread guild with ⟨-, hown⟩ | ⟨entry, g, hlast, -⟩
        · exact hown
        · exact absurd ⟨members, hgiven, hlast⟩ (hnone entry)
      | _ => cases hread
    · rw [h.guilds.left_out (not_exists.1 hgiven)]
      rfl
  rw [Settings.guild, hown, Option.getD_none]

end Guild

/-- **A guild's own settings hold as a whole.** In a guild without an entry the settings of a loaded
document are its defaults. In a guild with an entry, each field is read from what the entry gives
it; a field that the entry leaves out is not that of the defaults, but what holds in the absence of
this field from any record. -/
theorem overridden_as_a_whole {text : String} {s : Settings} (loaded : load text = .ok s) :
    ∃ doc, Json.ofText? text = some doc ∧ ∀ guild,
      ((∀ entry, ¬ EntryOf doc guild entry) → s.guild guild = s.defaults) ∧
      ∀ entry, EntryOf doc guild entry →
        Reads GuildSettings.fieldNames entry "prefixes" (list? text?) ["!"] (s.guild guild).sigils ∧
        Reads GuildSettings.fieldNames entry "locale" text? "en" (s.guild guild).locale := by
  obtain ⟨doc, hdoc, hread⟩ := exists_readFrom_of_load loaded
  refine ⟨doc, hdoc, fun guild => ⟨hread.guild_of_forall_not_entryOf, fun entry hentry => ?_⟩⟩
  have hguild := hread.guild_of_entryOf hentry
  exact ⟨hguild.sigils, hguild.locale⟩

/-- A repeated entry, of which the last is an array, for one guild of two. -/
theorem overridden_as_a_whole_repeated :
    let text := "\x7b\"defaults\": \x7b\"locale\": \"ru\"\x7d, " ++
      "\"guilds\": \x7b\"42\": \x7b\"locale\": \"de\"\x7d, \"42\": [[\"$\"]]\x7d\x7d"
    let s : Settings := {
      defaults := { locale := "ru" }, guilds := .ofList [(42, { sigils := ["$"] })] }
    load text = .ok s ∧ s.guild 7 = s.defaults ∧ (s.guild 42).sigils = ["$"] ∧
      (s.guild 42).locale = "en" := by
  intro text s
  let entry : Json := .array [.array [.string ['$']]]
  let members : List (List Char × Json) :=
    [(['4', '2'], .object [("locale".toList, .string ['d', 'e'])]), (['4', '2'], entry)]
  let defaults : Json := .object [("locale".toList, .string ['r', 'u'])]
  let fields := [("defaults".toList, defaults), ("guilds".toList, .object members)]
  have hread : Json.ofText? text = some (.object fields) := by
    simp only [text, fields, defaults, members, entry]
    rfl
  have hfields : (Json.object fields).members? =
    some [("defaults", defaults), ("guilds", .object members)] := by rfl
  have loaded : load text = .ok s := by decide +kernel
  obtain ⟨doc, hdoc, hguild⟩ := overridden_as_a_whole loaded
  cases hread.symm.trans hdoc
  have hown : EntryOf (.object fields) 42 entry :=
    ⟨members, (gives_object_iff hfields).2 (List.mem_cons_of_mem _ List.mem_cons_self), rfl⟩
  have hnone : ∀ other, ¬ EntryOf (.object fields) 7 other := by
    rintro other ⟨others, hgiven, hlast⟩
    have heq : others = members := by simpa using (gives_object_iff hfields).1 hgiven
    rw [heq] at hlast
    cases hlast
  obtain ⟨hsigils, hlocale⟩ := (hguild 42).2 entry hown
  refine ⟨loaded, (hguild 7).1 hnone, ?_, hlocale.left_out fun value => ?_⟩
  · exact (Option.some_inj.1 (hsigils.given _ (.item (i := 0) rfl rfl))).symm
  · rw [gives_array_iff (i := 1) (by decide) rfl]
    nofun

/-- The configured sigils do not hold in a guild with an entry that gives it another locale. -/
theorem sigils_not_from_defaults :
    let text := "\x7b\"defaults\": \x7b\"prefixes\": [\"?\", \"bot \"]\x7d, " ++
      "\"guilds\": \x7b\"42\": \x7b\"locale\": \"ru\"\x7d\x7d\x7d"
    ∃ s doc entry, load text = .ok s ∧ Json.ofText? text = some doc ∧ EntryOf doc 42 entry ∧
      (∀ value, ¬ entry.Gives GuildSettings.fieldNames "prefixes" value) ∧
      s.defaults.sigils = ["?", "bot "] ∧ (s.guild 42).sigils = ["!"] := by
  intro text
  let entry : Json := .object [("locale".toList, .string ['r', 'u'])]
  let doc : Json := .object [
    ("defaults".toList, .object [("prefixes".toList, .array [.string "?".toList,
      .string "bot ".toList])]),
    ("guilds".toList, .object [(['4', '2'], entry)])]
  have hread : Json.ofText? text = some doc := by
    simp only [text, doc, entry]
    rfl
  have hentry : entry.members? = some [("locale", .string ['r', 'u'])] := by rfl
  have hdoc : doc.members? = some [
      ("defaults", .object [("prefixes".toList, .array [.string "?".toList,
        .string "bot ".toList])]),
      ("guilds", .object [(['4', '2'], entry)])] := by rfl
  refine ⟨{ defaults := { sigils := ["?", "bot "] }, guilds := .ofList [(42, { locale := "ru" })] },
    doc, entry, by decide +kernel, hread, ⟨[(['4', '2'], entry)], ?_, rfl⟩, fun value => ?_,
    rfl, rfl⟩
  · exact (gives_object_iff hdoc).2 (List.mem_cons_of_mem _ List.mem_cons_self)
  · rw [gives_object_iff hentry]
    simp

end Settings

end ChatCommands
