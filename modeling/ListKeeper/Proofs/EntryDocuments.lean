import ListKeeper.Entry.Document
import ListKeeper.Proofs.Documents
import ListKeeper.Proofs.Pages
import ListKeeper.Proofs.Timestamps

/-! Entries as documents and back. Each part of an entry has one form in which it is written and is
read from it exactly, so that an entry is read from its document and from the text of its document,
and what was read in another form is written in this one. Main statements: `Entry.reads_back` and,
for entries on the pages, `Status.pages_read_back`. -/
namespace ListKeeper

namespace Json

@[simp]
theorem toId?_ofId (id : UInt64) : (ofId id).toId? = some id := by
  have hheld : (0 : Int) ≤ id.toNat ∧ (id.toNat : Int) < 18446744073709551616 := by
    have := id.toNat_lt
    omega
  simp only [ofId, toId?, countOfInt?, if_pos hheld, Int.toNat_natCast, UInt64.ofNat_toNat]

theorem legible_ofId (depth : Nat) (id : UInt64) : Legible depth (ofId id) := by
  have := id.toNat_lt
  simp only [ofId, Legible]
  omega

/-- Where one field alone has a name, it is found in any order of the fields. -/
theorem field?_perm {fields own others : List (String × Json)} {name : String} {v : Json}
    (hperm : fields.Perm (own ++ others)) (hown : own.filter (·.1 == name) = [(name, v)])
    (hothers : ∀ f ∈ others, f.1 ≠ name) : field? fields name = some v := by
  have hnone : others.filter (·.1 == name) = [] := by simpa using hothers
  have hfilter : (fields.filter (·.1 == name)).Perm [(name, v)] := by
    have h := hperm.filter (·.1 == name)
    rwa [List.filter_append, hown, hnone, List.append_nil] at h
  rw [field?, ← List.head?_filter, List.perm_singleton.mp hfilter]
  rfl

end Json

namespace Entry

/-! ### The parts of an entry -/

def pendingJson (e : Entry) : Json :=
  match e.pending with
  | some id => .ofId id
  | none => .null

theorem toOptionalId?_pendingJson (e : Entry) : e.pendingJson.toOptionalId? = some e.pending := by
  unfold pendingJson
  cases e.pending with
  | none => rfl
  | some id =>
    rw [Json.toOptionalId?, Json.toId?_ofId, Option.map_some]
    exact nofun

/-- The values of an entry's parts in their order, given how its times are spelled. -/
def spelled (e : Entry) (last next : String) : List Json :=
  [.ofId e.id, .bool e.enabled, .str e.name, .str e.url, .ofId e.ruleCount, .str last, .str next,
    e.pendingJson]

theorem toJson_eq (e : Entry) :
    e.toJson = .obj (partNames.zip (e.spelled e.lastUpdated.text e.nextUpdate.text)) := rfl

/-- An entry is read from any document whose parts are read as its parts. -/
theorem ofJson?_of_parts {v id enabled name url ruleCount lastUpdated nextUpdate pending : Json}
    (e : Entry)
    (hparts : v.parts? partNames = some [some id, some enabled, some name, some url,
      some ruleCount, some lastUpdated, some nextUpdate, some pending])
    (hid : id.toId? = some e.id) (henabled : enabled.toBool? = some e.enabled)
    (hname : name.toText? = some e.name) (hurl : url.toText? = some e.url)
    (hcount : ruleCount.toId? = some e.ruleCount)
    (hlast : lastUpdated.toInstant? = some e.lastUpdated)
    (hnext : nextUpdate.toInstant? = some e.nextUpdate)
    (hpending : pending.toOptionalId? = some e.pending) : ofJson? v = some e := by
  simp [ofJson?, hparts, hid, henabled, hname, hurl, hcount, hlast, hnext, hpending]

section

variable (e : Entry) {last next : String} (hlast : Instant.ofText? last = some e.lastUpdated)
  (hnext : Instant.ofText? next = some e.nextUpdate)

include hlast hnext

theorem ofJson?_of_spelled {v : Json}
    (hparts : v.parts? partNames = some ((e.spelled last next).map some)) : ofJson? v = some e :=
  ofJson?_of_parts e hparts (Json.toId?_ofId e.id) rfl rfl rfl (Json.toId?_ofId e.ruleCount)
    hlast hnext e.toOptionalId?_pendingJson

/-- An entry is read from its fields in any order, and others may stand between them. -/
theorem ofJson?_perm {fields others : List (String × Json)}
    (hperm : fields.Perm (partNames.zip (e.spelled last next) ++ others))
    (hothers : ∀ f ∈ others, f.1 ∉ partNames) : ofJson? (.obj fields) = some e := by
  -- no two parts have one name
  have hown : ∀ p ∈ partNames.zip (e.spelled last next),
      (partNames.zip (e.spelled last next)).filter (·.1 == p.1) = [p] := by
    simp [partNames, spelled]
  have hfound : ∀ p ∈ partNames.zip (e.spelled last next),
      Json.field? fields p.1 = some p.2 := by
    intro p hp
    refine Json.field?_perm hperm (hown p hp) fun f hf hname => ?_
    exact hothers f hf (hname ▸ (List.of_mem_zip hp).1)
  apply e.ofJson?_of_spelled hlast hnext
  simpa [Json.parts?, partNames, spelled] using hfound

end

/-- An entry is read from its document. -/
@[simp]
theorem ofJson?_toJson (e : Entry) : ofJson? e.toJson = some e :=
  e.ofJson?_of_spelled e.lastUpdated.ofText?_text e.nextUpdate.ofText?_text rfl

/-- The document of an entry can be read from its text, also inside of other documents. -/
theorem legible_toJson (depth : Nat) (e : Entry) : Json.Legible (depth + 1) e.toJson := by
  have hpending : Json.Legible depth e.pendingJson := by
    unfold pendingJson
    cases e.pending with
    | none => trivial
    | some id => exact Json.legible_ofId depth id
  simp [toJson_eq, partNames, spelled, Json.Legible, Json.LegibleFields, Json.legible_ofId,
    hpending]

@[simp]
theorem read?_toJson (e : Entry) : Json.read? e.toJson.text = some e.toJson :=
  Json.read?_text e.toJson (e.legible_toJson _)

/-- An entry is written as an object of its parts in their order, with its times in their canonical
form. It is read from what is written of it, as a document and as text, and what was read from any
other document is written in that form. Among the other documents are those with the times spelled
in any other way, with the fields in any order, and with fields of no meaning between them. -/
theorem reads_back :
    (∀ e : Entry, ∃ last next : String, e.lastUpdated.Canonical last.toList ∧
      e.nextUpdate.Canonical next.toList ∧
      e.toJson = .obj (partNames.zip (e.spelled last next))) ∧
    (∀ e : Entry, ofJson? e.toJson = some e ∧ (Json.read? e.toJson.text).bind ofJson? = some e) ∧
    (∀ (v : Json) (e : Entry), ofJson? v = some e →
      ofJson? e.toJson = some e ∧ (Json.read? e.toJson.text).bind ofJson? = some e) ∧
    ∀ (e : Entry) (last next : String) (fields others : List (String × Json)),
      e.lastUpdated.Spelled last.toList → e.nextUpdate.Spelled next.toList →
        fields.Perm (partNames.zip (e.spelled last next) ++ others) →
          (∀ f ∈ others, f.1 ∉ partNames) → ofJson? (.obj fields) = some e := by
  have hwritten : ∀ e : Entry,
      ofJson? e.toJson = some e ∧ (Json.read? e.toJson.text).bind ofJson? = some e := by
    intro e
    have hread : ofJson? e.toJson = some e := e.ofJson?_toJson
    exact ⟨hread, by rw [read?_toJson, Option.bind_some, hread]⟩
  refine ⟨fun e => ⟨_, _, e.lastUpdated.canonical_text, e.nextUpdate.canonical_text, e.toJson_eq⟩,
    hwritten, fun _ e _ => hwritten e, fun e last next fields others hlast hnext hperm => ?_⟩
  exact e.ofJson?_perm ((Instant.ofText?_eq_some_iff _ _).mpr hlast)
    ((Instant.ofText?_eq_some_iff _ _).mpr hnext) hperm

/-- A document whose fields are in another order, with one field more, and whose times are spelled
with an offset, a leap second, and a sign on the year. -/
def respelled : Json :=
  .obj
    [("url", .str "https://lists.example/a"), ("comment", .null),
      ("last_updated", .str "2016-12-31 20:59:60.5 -0300"), ("id", .int 18446744073709551615),
      ("name", .str "a \"quoted\"\nname"), ("enabled", .bool true),
      ("next_update", .str "+262142-12-31t23:59:59.9999999999UTC"),
      ("rule_count", .int 9007199254740993)]

theorem reads_back_respelled :
    ∃ e, ofJson? respelled = some e ∧ e.lastUpdated.text = "2016-12-31T23:59:60.500Z" ∧
      e.nextUpdate = .latest ∧ (Json.read? e.toJson.text).bind ofJson? = some e := by
  have htimes : (ofJson? respelled).map (fun e => (e.lastUpdated.text, e.nextUpdate)) =
      some ("2016-12-31T23:59:60.500Z", .latest) := by decide +kernel
  obtain ⟨e, he, hpair⟩ := Option.map_eq_some_iff.mp htimes
  obtain ⟨hlast, hnext⟩ := Prod.mk.inj hpair
  exact ⟨e, he, hlast, hnext, (reads_back.2.2.1 respelled e he).2⟩

/-! ### Entries on the pages -/

theorem legible_entries (depth : Nat) (es : List Entry) :
    Json.LegibleItems (depth + 1) (es.map toJson) := by
  induction es with
  | nil => trivial
  | cons e es ih => exact ⟨e.legible_toJson depth, ih⟩

theorem mapM_ofJson? (es : List Entry) : (es.map toJson).mapM ofJson? = some es := by
  induction es with
  | nil => rfl
  | cons e es ih => simp [ih]

end Entry

namespace Status

/-- The registered lists are read from the page of all lists in their order, and each one is read
from the page under its id. -/
theorem pages_read_back (s : System) (updatesEnabled : Bool) :
    (∃ v, respond s updatesEnabled "GET" "/filters" = .json 200 v ∧
      ∃ items, Json.read? v.text = some (.obj [("filters", .arr items)]) ∧
        items.mapM Entry.ofJson? = some s.registry.entries) ∧
    ∀ id e, s.registry.getById? id = some e →
      ∃ v, respond s updatesEnabled "GET" (filterPath id) = .json 200 v ∧
        (Json.read? v.text).bind Entry.ofJson? = some e := by
  refine ⟨⟨_, respond_filters s updatesEnabled, _, Json.read?_text _ ?_,
    Entry.mapM_ofJson? s.registry.entries⟩, fun id e hget => ⟨e.toJson, ?_, ?_⟩⟩
  · exact ⟨by simp, Entry.legible_entries _ s.registry.entries, trivial⟩
  · rw [respond_filter, filter, hget]
  · rw [Entry.read?_toJson, Option.bind_some, Entry.ofJson?_toJson]

end Status
end ListKeeper
