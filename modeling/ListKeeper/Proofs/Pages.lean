import Mathlib.Data.List.TakeWhile
import ListKeeper.Proofs.FileNames
import ListKeeper.Proofs.Registry
import ListKeeper.Status

/-! What the pages show. An id that is written into a path is read back as it is, so the page of a
list is reached under the id that the page of all lists gives. Main statements:
`Status.respond_filter` and, for a registry in which no two entries have the same id,
`Status.shows`. -/
namespace ListKeeper

/-! ### Plain text in a path -/

/-- A character that is written as one byte, and that stands for itself in a path. -/
def Utf8.Plain (c : Char) : Prop := c.toNat < 0x80 ∧ c ≠ '%'

def Utf8.bytesOf (cs : List Char) : Bytes := cs.map fun c => c.val.toUInt8

section

variable {cs : List Char}

theorem Utf8.encode_of_plain (h : ∀ c ∈ cs, Utf8.Plain c) : encode cs = bytesOf cs := by
  induction cs with
  | nil => rfl
  | cons c cs ih =>
    have hsize : c.utf8Size = 1 := by
      refine Char.utf8Size_eq_one_iff.mpr (UInt32.le_iff_toNat_le.mpr ?_)
      exact Nat.le_of_lt_succ (h c (by simp)).1
    have hrest := ih fun x hx => h x (by simp [hx])
    rw [encode, List.flatMap_cons, String.utf8EncodeChar_eq_singleton hsize]
    exact congrArg (c.val.toUInt8 :: ·) hrest

/-- The byte of a plain character is its number. -/
theorem Utf8.Plain.toNat_byte {c : Char} (h : Utf8.Plain c) : c.val.toUInt8.toNat = c.toNat := by
  have hlow := h.1
  change c.val.toNat % 256 = c.val.toNat
  change c.val.toNat < 0x80 at hlow
  omega

theorem Utf8.Plain.byte_ne_percent {c : Char} (h : Utf8.Plain c) : c.val.toUInt8 ≠ 0x25 := by
  intro heq
  have hnum := h.toNat_byte
  rw [heq] at hnum
  exact h.2 (Char.toNat_inj.mp hnum.symm)

theorem Percent.decode_of_none (bs : Bytes) (h : ∀ b ∈ bs, b ≠ 0x25) : decode bs = bs := by
  fun_induction decode bs with
  | case1 a b rest x y hx hy ih => exact absurd rfl (h 0x25 (by simp))
  | case2 a b rest hnone ih => exact absurd rfl (h 0x25 (by simp))
  | case3 b rest hnot ih => rw [ih fun x hx => h x (by simp [hx])]
  | case4 => rfl

theorem Utf8.readWith_bytesOf (bad : Option Char) (fuel : Nat) (acc : List Char)
    (hfuel : cs.length ≤ fuel) (h : ∀ c ∈ cs, Utf8.Plain c) :
    readWith bad fuel acc (bytesOf cs) = some (acc.reverse ++ cs) := by
  induction cs generalizing fuel acc with
  | nil => cases fuel <;> simp [bytesOf, readWith]
  | cons c cs ih =>
    obtain ⟨fuel, rfl⟩ : ∃ n, fuel = n + 1 := ⟨fuel - 1, by simp at hfuel; omega⟩
    have hc := h c (by simp)
    have hlow : c.val.toUInt8 < 0x80 := by
      apply UInt8.lt_iff_toNat_lt.mpr
      rw [hc.toNat_byte]
      exact hc.1
    have htake (rest : Bytes) : takeChar c.val.toUInt8 rest = (some c, rest) := by
      rw [takeChar, if_pos hlow, hc.toNat_byte, Char.ofNat_toNat]
    have hrest := ih fuel (c :: acc) (by simpa using hfuel) fun x hx => h x (by simp [hx])
    simp only [bytesOf, List.map_cons, readWith, htake]
    simpa [bytesOf] using hrest

/-- Plain text in a path is read as it stands there. -/
theorem Utf8.decode?_of_plain (h : ∀ c ∈ cs, Utf8.Plain c) :
    decode? (Percent.decode (encode cs)) = some cs := by
  rw [encode_of_plain h, Percent.decode_of_none]
  · exact readWith_bytesOf none _ [] (by simp [bytesOf]) h
  · intro b hb
    obtain ⟨c, hc, rfl⟩ := List.mem_map.mp hb
    exact (h c hc).byte_ne_percent

end

/-! ### An id in a path -/

namespace Store

theorem toList_toString (id : UInt64) : (toString id).toList = digits id := by
  change (toString id.toNat).toList = _
  simp [digits]

theorem isDigit_of_mem_digits (id : UInt64) (c : Char) (hc : c ∈ digits id) : c.isDigit = true :=
  Nat.isDigit_of_mem_toDigits (by decide) (by decide) hc

theorem plain_of_mem_digits (id : UInt64) (c : Char) (hc : c ∈ digits id) : Utf8.Plain c := by
  have hdigit := isDigit_of_mem_digits id c hc
  constructor
  · simp only [Char.isDigit, ge_iff_le, Bool.and_eq_true, decide_eq_true_eq] at hdigit
    have hle := UInt32.le_iff_toNat_le.mp hdigit.2
    exact Nat.lt_of_le_of_lt hle (by decide)
  · rintro rfl
    exact absurd hdigit (by decide)

end Store

theorem readCount?_digits (id : UInt64) :
    readCount? 18446744073709551616 (Store.digits id) = some id.toNat := by
  have hdigit := Store.isDigit_of_mem_digits id
  -- no sign stands in front of the digits
  have hplus : ∀ ds, Store.digits id ≠ '+' :: ds := by
    intro ds heq
    exact absurd (hdigit '+' (by simp [heq])) (by decide)
  have hall : (Store.digits id).all (·.isDigit) = true := List.all_eq_true.mpr hdigit
  have hempty : (Store.digits id).isEmpty = false := by simpa using Store.digits_ne_nil id
  have hread : (Store.digits id).foldl (fun n c => 10 * n + (c.toNat - 48)) 0 = id.toNat :=
    Nat.ofDigitChars_ten_toDigits
  simp [readCount?, hall, hempty, hread, id.toNat_lt]

namespace Status

theorem readId_text (id : UInt64) : readId (toString id) = .ok id := by
  have hbytes := Utf8.decode?_of_plain (Store.plain_of_mem_digits id)
  simp only [readId, Store.toList_toString, hbytes, readCount?_digits]
  simp

def filterPath (id : UInt64) : String := "/filters/" ++ toString id

theorem toList_filterPath (id : UInt64) :
    (filterPath id).toList = "/filters".toList ++ '/' :: Store.digits id := by
  rw [filterPath, String.toList_append, Store.toList_toString]
  rfl

theorem pathOf_filterPath (id : UInt64) :
    pathOf (filterPath id).toList = (filterPath id).toList := by
  have hfront : ("/filters".toList.all fun c => c != '?' && c != '#') = true := by decide
  have hend : ∀ c ∈ (filterPath id).toList, (c != '?' && c != '#') = true := by
    intro c hc
    rw [toList_filterPath, List.mem_append, List.mem_cons] at hc
    rcases hc with hc | rfl | hc
    · exact List.all_eq_true.mp hfront c hc
    · rfl
    · have hdigit := Store.isDigit_of_mem_digits id c hc
      simp only [Bool.and_eq_true, bne_iff_ne, ne_eq]
      constructor <;> rintro rfl <;> exact absurd hdigit (by decide)
  simp only [pathOf, List.takeWhile_eq_self_iff.mpr hend]
  rw [toList_filterPath]
  rfl

theorem target?_filterPath (id : UInt64) :
    target? (pathOf (filterPath id).toList) = some (.filter (toString id)) := by
  have hpieces : pieces Location.isSlash (filterPath id).toList =
      [[], "filters".toList, Store.digits id] := by
    rw [toList_filterPath, Location.pieces_append_slash _ _ (Store.ne_slash_of_mem_digits id)]
    rfl
  have htext : String.ofList (Store.digits id) = toString id := by
    rw [← Store.toList_toString, String.ofList_toList]
  simp [pathOf_filterPath, target?, hpieces, Store.digits_ne_nil, htext]

/-- The page of a list, reached by its id. -/
theorem respond_filter (s : System) (updatesEnabled : Bool) (id : UInt64) :
    respond s updatesEnabled "GET" (filterPath id) = filter s id := by
  simp only [respond, target?_filterPath, page, readId_text, if_true]

theorem respond_filters (s : System) (updatesEnabled : Bool) :
    respond s updatesEnabled "GET" "/filters" = filters s := rfl

theorem respond_health (s : System) (updatesEnabled : Bool) :
    respond s updatesEnabled "GET" "/health" = health s updatesEnabled := rfl

end Status

/-! ### The elements of the page of all lists -/

namespace Json

def at? : Json → String → Option Json
  | .obj fields, key => field? fields key
  | _, _ => none

def waits (v : Json) : Bool :=
  match v.at? "pending_id" with
  | some .null => false
  | other => other.isSome

theorem ofId_inj (a b : UInt64) (h : ofId a = ofId b) : a = b := by
  have hnum : (a.toNat : Int) = b.toNat := Json.int.inj h
  exact UInt64.toNat_inj.mp (Int.ofNat.inj hnum)

end Json

namespace Entry

theorem at?_id (e : Entry) : e.toJson.at? "id" = some (.ofId e.id) := rfl

theorem waits_toJson (e : Entry) : e.toJson.waits = e.pending.isSome := by
  obtain ⟨id, enabled, name, url, ruleCount, lastUpdated, nextUpdate, pending⟩ := e
  cases pending <;> rfl

theorem countP_waits (es : List Entry) :
    (es.map toJson).countP Json.waits = es.countP fun e => e.pending.isSome := by
  rw [List.countP_map]
  exact congrArg (es.countP ·) (funext waits_toJson)

end Entry

namespace Registry

variable (r : Registry)

theorem length_staged : r.staged.length = r.entries.countP fun e => e.pending.isSome := by
  rw [staged, List.length_filterMap_eq_countP]
  simp

theorem hasPending_iff : r.hasPending = true ↔ 0 < r.staged.length := by
  rw [length_staged, List.countP_pos_iff, hasPending, List.any_eq_true]

end Registry

namespace Status

/-- The pages of a system, given the elements of the page of all lists. -/
structure Shows (s : System) (updatesEnabled : Bool) (items : List Json) : Prop where
  listed : respond s updatesEnabled "GET" "/filters" = .json 200 (.obj [("filters", .arr items)])
  entries : items = s.registry.entries.map Entry.toJson
  ids_nodup : (items.map (·.at? "id")).Nodup
  /-- Each element has a page of its own, under its id. -/
  found : ∀ v ∈ items, ∀ id, v.at? "id" = some (.ofId id) →
    respond s updatesEnabled "GET" (filterPath id) = .json 200 v
  /-- No other id has one. -/
  missing : ∀ id, (∀ v ∈ items, v.at? "id" ≠ some (.ofId id)) →
    respond s updatesEnabled "GET" (filterPath id) = .error (.notFound s!"filter {id}") ∧
      (respond s updatesEnabled "GET" (filterPath id)).status = 404
  health : ∃ v, respond s updatesEnabled "GET" "/health" = .json 200 v ∧
    v.at? "filters" = some (.ofNat items.length) ∧
    v.at? "pending_commit" = some (.ofNat (items.countP Json.waits))
  staged : items.countP Json.waits = s.registry.staged.length
  hasPending : s.registry.hasPending = true ↔ 0 < items.countP Json.waits

theorem shows (s : System) (updatesEnabled : Bool) (h : (s.registry.entries.map (·.id)).Nodup) :
    Shows s updatesEnabled (s.registry.entries.map Entry.toJson) where
  listed := respond_filters s updatesEnabled
  entries := rfl
  ids_nodup := by
    have hids : (s.registry.entries.map Entry.toJson).map (·.at? "id") =
        (s.registry.entries.map (·.id)).map fun id => some (Json.ofId id) := by
      rw [List.map_map, List.map_map]
      rfl
    rw [hids]
    exact h.map fun a b hab => Json.ofId_inj a b (Option.some.inj hab)
  found v hv id hid := by
    obtain ⟨e, he, rfl⟩ := List.mem_map.mp hv
    obtain rfl : e.id = id := Json.ofId_inj _ _ (Option.some.inj (e.at?_id.symm.trans hid))
    rw [respond_filter, filter, Registry.getById?, s.registry.find?_of_mem (·.id) h e he]
  missing id hno := by
    have hget : s.registry.getById? id = none := by
      refine List.find?_eq_none.mpr fun e he hid => ?_
      apply hno e.toJson (List.mem_map_of_mem he)
      rw [e.at?_id, eq_of_beq hid]
    rw [respond_filter, filter, hget]
    exact ⟨rfl, rfl⟩
  health := by
    refine ⟨_, respond_health s updatesEnabled, ?_, ?_⟩
    · rw [List.length_map]
      rfl
    · rw [Entry.countP_waits]
      rfl
  staged := by
    rw [Entry.countP_waits, Registry.length_staged]
  hasPending := by
    rw [Entry.countP_waits, ← Registry.length_staged, Registry.hasPending_iff]

end Status
end ListKeeper
