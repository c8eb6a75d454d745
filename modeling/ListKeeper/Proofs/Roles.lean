import Mathlib.Data.List.Nodup
import Mathlib.Logic.Function.Basic
import ListKeeper.Proofs.Ids
import ListKeeper.Proofs.Registry
import ListKeeper.Proofs.Run

/-! What ids are used for. An id has one role at a time. It is held by an addition until its entry
is put in, or by the refresher until its file is recorded; from then on its role never changes, not
even when the entry is deleted. That roles differ keeps all files apart. Main statement:
`World.Sound.step`, by which every step goes on with roles that fit. -/
namespace ListKeeper

/-- What an id is used for. -/
inductive Role
  | unused
  | adding (caller : Nat)
  | canonical
  | staging
  | staged (id : UInt64)
  deriving DecidableEq

namespace Role

/-- Roles that are never given up. -/
def Lasts : Role → Prop
  | canonical => True
  | staged _ => True
  | _ => False

end Role

def Adding.id? : Adding → Option UInt64
  | .fetch id _ => some id
  | .write id _ _ => some id
  | .insert id _ => some id
  | .withdraw id => some id
  | _ => none

def Committing.pairs : Committing → List (UInt64 × UInt64)
  | .close pairs => pairs
  | .promote pairs _ => pairs
  | .clear id stagedId rest _ => (id, stagedId) :: rest
  | _ => []

/-- The entries differ in all that is to be unique, and their ids have their roles. -/
structure Table (role : UInt64 → Role) (es : List Entry) : Prop where
  ids : (es.map (·.id)).Nodup
  names : (es.map (·.name)).Nodup
  urls : (es.map (·.url)).Nodup
  canonical : ∀ e ∈ es, role e.id = .canonical
  pending : ∀ e ∈ es, ∀ p, e.pending = some p → role p = .staged e.id

/-- Ids in use are known to the source, which still has room. -/
structure Numbered (role : UInt64 → Role) (ids : IdSource) (minted : Nat) : Prop where
  zero : role 0 = .unused
  le_last : ∀ id, role id ≠ .unused → id.toNat ≤ ids.last.toNat
  room : ids.last.toNat < IdSource.room + minted

def Held (role : UInt64 → Role) (adds : List (Candidate × Adding)) : Prop :=
  ∀ caller c stage id, adds[caller]? = some (c, stage) → stage.id? = some id →
    role id = .adding caller

/-- A copy of an entry that tells what the registered one is, if it still is there. -/
structure Known (role : UInt64 → Role) (es : List Entry) (e : Entry) : Prop where
  canonical : role e.id = .canonical
  same : ∀ x ∈ es, x.id = e.id → x.name = e.name ∧ x.url = e.url

/-- A file that no entry waits for any more. -/
structure Stray (role : UInt64 → Role) (es : List Entry) (file : UInt64) : Prop where
  staged : role file = .staging ∨ ∃ id, role file = .staged id
  free : ∀ e ∈ es, e.pending ≠ some file

/-- Pairs that the entries still wait for, as far as these are registered. -/
structure Awaited (role : UInt64 → Role) (es : List Entry) (pairs : List (UInt64 × UInt64)) :
    Prop where
  nodup : (pairs.map (·.1)).Nodup
  canonical : ∀ p ∈ pairs, role p.1 = .canonical
  staged : ∀ p ∈ pairs, role p.2 = .staged p.1
  pending : ∀ p ∈ pairs, ∀ e ∈ es, e.id = p.1 → e.pending = some p.2

def Stage.Sound (role : UInt64 → Role) (es : List Entry) : Stage → Prop
  | .select => True
  | .fetch e _ => Known role es e
  | .mint e _ => Known role es e
  | .write e stagedId _ _ => Known role es e ∧ role stagedId = .staging
  | .record e stagedId _ => Known role es e ∧ role stagedId = .staging
  | .tidy file => Stray role es file
  | .tally _ => True
  | .commit c => Awaited role es c.pairs
  | .idle => True

structure World.Sound (role : UInt64 → Role) (w : World) (minted : Nat) : Prop where
  table : Table role w.entries
  numbered : Numbered role w.system.ids minted
  held : Held role w.adds
  stage : w.refresher.stage.Sound role w.entries

theorem Awaited.ne {role : UInt64 → Role} {es : List Entry} {pairs : List (UInt64 × UInt64)}
    (h : Awaited role es pairs) (id stagedId : UInt64) (hmem : (id, stagedId) ∈ pairs) :
    stagedId ≠ id := by
  rintro rfl
  have hc : role stagedId = .canonical := h.canonical _ hmem
  have hs : role stagedId = .staged stagedId := h.staged _ hmem
  rw [hc] at hs
  cases hs

theorem Awaited.tail {role : UInt64 → Role} {es : List Entry} {pair : UInt64 × UInt64}
    {rest : List (UInt64 × UInt64)} (h : Awaited role es (pair :: rest)) :
    Awaited role es rest where
  nodup := (List.nodup_cons.mp h.nodup).2
  canonical q hq := h.canonical q (by simp [hq])
  staged q hq := h.staged q (by simp [hq])
  pending q hq := h.pending q (by simp [hq])

/-! ### A role is taken -/

section

variable {role : UInt64 → Role} {es : List Entry} {x : UInt64} {r : Role}

theorem update_of_lasts (hx : ¬ (role x).Lasts) (y : UInt64) (hy : (role y).Lasts) :
    Function.update role x r y = role y := by
  apply Function.update_of_ne
  rintro rfl
  exact hx hy

theorem Table.update (h : Table role es) (hx : ¬ (role x).Lasts) :
    Table (Function.update role x r) es where
  ids := h.ids
  names := h.names
  urls := h.urls
  canonical e he := by
    have hc := h.canonical e he
    rw [update_of_lasts hx _ (by rw [hc]; trivial), hc]
  pending e he p hp := by
    have hs := h.pending e he p hp
    rw [update_of_lasts hx _ (by rw [hs]; trivial), hs]

theorem Known.update {e : Entry} (h : Known role es e) (hx : ¬ (role x).Lasts) :
    Known (Function.update role x r) es e := by
  refine ⟨?_, h.same⟩
  rw [update_of_lasts hx _ (by rw [h.canonical]; trivial), h.canonical]

theorem Awaited.update {pairs : List (UInt64 × UInt64)} (h : Awaited role es pairs)
    (hx : ¬ (role x).Lasts) : Awaited (Function.update role x r) es pairs where
  nodup := h.nodup
  canonical p hp := by
    have hc := h.canonical p hp
    rw [update_of_lasts hx _ (by rw [hc]; trivial), hc]
  staged p hp := by
    have hs := h.staged p hp
    rw [update_of_lasts hx _ (by rw [hs]; trivial), hs]
  pending := h.pending

/-- What a refresher relies on does not hang on ids that others hold. -/
theorem Stage.Sound.update {stage : Stage} (h : stage.Sound role es) (hx : ¬ (role x).Lasts)
    (hs : role x ≠ .staging) : stage.Sound (Function.update role x r) es := by
  have hstaging (y : UInt64) (hy : role y = .staging) :
      Function.update role x r y = .staging := by
    rw [Function.update_of_ne, hy]
    rintro rfl
    exact hs hy
  cases stage with
  | select => trivial
  | fetch e f => exact Known.update h hx
  | mint e body => exact Known.update h hx
  | write e stagedId body w => exact ⟨h.1.update hx, hstaging stagedId h.2⟩
  | record e stagedId body => exact ⟨h.1.update hx, hstaging stagedId h.2⟩
  | tidy file =>
    refine ⟨?_, h.free⟩
    rcases h.staged with hf | ⟨id, hf⟩
    · exact .inl (hstaging file hf)
    · exact .inr ⟨id, by rw [update_of_lasts hx _ (by rw [hf]; trivial), hf]⟩
  | tally succeeded => trivial
  | commit c => exact Awaited.update h hx
  | idle => trivial

theorem Held.update {adds : List (Candidate × Adding)} (h : Held role adds)
    (hx : ∀ caller, role x ≠ .adding caller) : Held (Function.update role x r) adds := by
  intro caller c stage id hadd hid
  have hrole := h caller c stage id hadd hid
  rw [Function.update_of_ne, hrole]
  rintro rfl
  exact hx caller hrole

/-- The next id has no role yet and can take any. -/
theorem Numbered.mint {ids : IdSource} {minted : Nat} (h : Numbered role ids minted)
    (hm : minted + 1 < IdSource.room) (now : Instant) :
    role (ids.next now) = .unused ∧
      Numbered (Function.update role (ids.next now) r) (ids.advance now) (minted + 1) := by
  have hroom := h.room
  have hlast : ids.last.toNat < 18446744073709551615 := by
    unfold IdSource.room at hroom hm
    omega
  have hlt := ids.last_lt_next now hlast
  constructor
  · by_contra hused
    -- every id in use is at most the last one
    have hle := h.le_last _ hused
    omega
  · refine ⟨?_, ?_, ids.next_le now hlast minted hroom⟩
    · rw [Function.update_of_ne, h.zero]
      intro hzero
      rw [← hzero] at hlt
      exact absurd hlt (by simp)
    · intro id hid
      change id.toNat ≤ (ids.next now).toNat
      by_cases he : id = ids.next now
      · exact Nat.le_of_eq (congrArg UInt64.toNat he)
      · rw [Function.update_of_ne he] at hid
        have hle := h.le_last id hid
        omega

/-- An id that is in use takes another role. -/
theorem Numbered.update {ids : IdSource} {minted : Nat} (h : Numbered role ids minted)
    (hx : role x ≠ .unused) : Numbered (Function.update role x r) ids minted where
  zero := by
    rw [Function.update_of_ne, h.zero]
    rintro rfl
    exact hx h.zero
  le_last y hy := by
    apply h.le_last
    by_cases hyx : y = x
    · rwa [hyx]
    · rwa [Function.update_of_ne hyx] at hy
  room := h.room

end

/-! ### The registry changes -/

section

variable {role : UInt64 → Role} {es es' : List Entry} {pre post : List Entry} {x y : Entry}

/-- The entries are the old ones up to what is no matter of roles, or new ones. -/
def Continues (role : UInt64 → Role) (es es' : List Entry) : Prop :=
  ∀ e' ∈ es',
    (∃ e ∈ es, e.id = e'.id ∧ e.name = e'.name ∧ e.url = e'.url ∧ e.pending = e'.pending) ∨
      (role e'.id ≠ .canonical ∧ e'.pending = none)

theorem Known.continue {e : Entry} (h : Known role es e) (hc : Continues role es es') :
    Known role es' e := by
  refine ⟨h.canonical, ?_⟩
  intro e' he' hid
  rcases hc e' he' with ⟨e₀, he₀, hid₀, hname, hurl, -⟩ | ⟨hnew, -⟩
  · rw [← hname, ← hurl]
    exact h.same e₀ he₀ (hid₀.trans hid)
  · exact absurd (hid ▸ h.canonical) hnew

theorem Awaited.continue {pairs : List (UInt64 × UInt64)} (h : Awaited role es pairs)
    (hc : Continues role es es') : Awaited role es' pairs := by
  refine ⟨h.nodup, h.canonical, h.staged, ?_⟩
  intro p hp e' he' hid
  rcases hc e' he' with ⟨e₀, he₀, hid₀, -, -, hpend⟩ | ⟨hnew, -⟩
  · rw [← hpend]
    exact h.pending p hp e₀ he₀ (hid₀.trans hid)
  · exact absurd (hid ▸ h.canonical p hp) hnew

/-- What a refresher relies on holds of entries that go on. -/
theorem Stage.Sound.continue {stage : Stage} (h : stage.Sound role es)
    (hc : Continues role es es') : stage.Sound role es' := by
  cases stage with
  | select => trivial
  | fetch e f => exact Known.continue h hc
  | mint e body => exact Known.continue h hc
  | write e stagedId body w => exact ⟨h.1.continue hc, h.2⟩
  | record e stagedId body => exact ⟨h.1.continue hc, h.2⟩
  | tidy file =>
    refine ⟨h.staged, ?_⟩
    intro e' he' hpend
    rcases hc e' he' with ⟨e₀, he₀, -, -, -, hpend₀⟩ | ⟨-, hnone⟩
    · exact h.free e₀ he₀ (hpend₀.trans hpend)
    · rw [hnone] at hpend
      cases hpend
  | tally succeeded => trivial
  | commit c => exact Awaited.continue h hc
  | idle => trivial

theorem Continues.of_subset (role : UInt64 → Role) (h : ∀ e ∈ es', e ∈ es) :
    Continues role es es' := fun e he => .inl ⟨e, h e he, rfl, rfl, rfl, rfl⟩

theorem Table.sublist (h : Table role es) (hsub : es'.Sublist es) : Table role es' where
  ids := (hsub.map _).nodup h.ids
  names := (hsub.map _).nodup h.names
  urls := (hsub.map _).nodup h.urls
  canonical e he := h.canonical e (hsub.subset he)
  pending e he := h.pending e (hsub.subset he)

/-- One entry is changed; it keeps what is unique. -/
theorem Table.replace (h : Table role (pre ++ x :: post)) (hid : y.id = x.id)
    (hname : y.name = x.name) (hurl : y.url = x.url)
    (hpend : ∀ p, y.pending = some p → role p = .staged x.id) :
    Table role (pre ++ y :: post) where
  ids := by simpa [hid] using h.ids
  names := by simpa [hname] using h.names
  urls := by simpa [hurl] using h.urls
  canonical e he := by
    rcases List.mem_append.mp he with he | he
    · exact h.canonical e (by simp [he])
    · rcases List.mem_cons.mp he with rfl | he
      · rw [hid]
        exact h.canonical x (by simp)
      · exact h.canonical e (by simp [he])
  pending e he p hp := by
    rcases List.mem_append.mp he with he | he
    · exact h.pending e (by simp [he]) p hp
    · rcases List.mem_cons.mp he with rfl | he
      · rw [hid]
        exact hpend p hp
      · exact h.pending e (by simp [he]) p hp

theorem Table.append (h : Table role es) (hid : ∀ e ∈ es, e.id ≠ y.id)
    (hnew : ∀ e ∈ es, e.name ≠ y.name ∧ e.url ≠ y.url) (hrole : role y.id = .canonical)
    (hpend : y.pending = none) : Table role (es ++ [y]) where
  ids := by
    rw [List.map_append, List.nodup_append]
    refine ⟨h.ids, by simp, ?_⟩
    simpa using hid
  names := by
    rw [List.map_append, List.nodup_append]
    refine ⟨h.names, by simp, ?_⟩
    simpa using fun e he => (hnew e he).1
  urls := by
    rw [List.map_append, List.nodup_append]
    refine ⟨h.urls, by simp, ?_⟩
    simpa using fun e he => (hnew e he).2
  canonical e he := by
    rcases List.mem_append.mp he with he | he
    · exact h.canonical e he
    · rw [List.mem_singleton.mp he]
      exact hrole
  pending e he p hp := by
    rcases List.mem_append.mp he with he | he
    · exact h.pending e he p hp
    · rw [List.mem_singleton.mp he, hpend] at hp
      cases hp

/-- An id leads to one entry. -/
theorem Table.eq_of_id (h : Table role es) (e e' : Entry) (he : e ∈ es) (he' : e' ∈ es)
    (hid : e.id = e'.id) : e = e' := List.inj_on_of_nodup_map h.ids he he' hid

theorem Table.id_ne_of_split (h : Table role (pre ++ x :: post)) (e : Entry)
    (he : e ∈ pre ∨ e ∈ post) : e.id ≠ x.id := Registry.id_ne_of_split h.ids e he

/-- No entry waits for a file that is not recorded yet. -/
theorem Table.pending_ne (h : Table role es) {stagedId : UInt64}
    (hstaging : role stagedId = .staging) (e : Entry) (he : e ∈ es) (p : UInt64)
    (hp : e.pending = some p) : p ≠ stagedId := by
  rintro rfl
  rw [h.pending e he p hp] at hstaging
  cases hstaging

/-- The file that an entry was waiting for is one that nobody waits for any more. -/
theorem Table.stray (h : Table role (pre ++ x :: post)) (old : UInt64) (hx : x.pending = some old)
    (hy : y.pending ≠ some old) : Stray role (pre ++ y :: post) old := by
  have hrole : role old = .staged x.id := h.pending x (by simp) old hx
  refine ⟨.inr ⟨x.id, hrole⟩, ?_⟩
  intro e he hpend
  -- no other entry waits for it, since it is staged for `x` alone
  have hother (hmem : e ∈ pre ∨ e ∈ post) : False := by
    have hall : e ∈ pre ++ x :: post := by rcases hmem with hmem | hmem <;> simp [hmem]
    rw [h.pending e hall old hpend] at hrole
    exact h.id_ne_of_split e hmem (Role.staged.inj hrole)
  rcases List.mem_append.mp he with he | he
  · exact hother (.inl he)
  · rcases List.mem_cons.mp he with rfl | he
    · exact hy hpend
    · exact hother (.inr he)

/-- What waits for a commit is awaited. -/
theorem Table.awaited (r : Registry) (h : Table role r.entries) :
    Awaited role r.entries r.staged where
  nodup := by
    -- the ids that wait are some of those in the registry, in the same order
    have hsub : ∀ es : List Entry,
        ((es.filterMap fun e => e.pending.map fun p => (e.id, p)).map (·.1)).Sublist
          (es.map (·.id)) := by
      intro es
      induction es with
      | nil => exact List.Sublist.refl _
      | cons e es ih =>
        cases hp : e.pending with
        | none => simpa [hp] using ih.cons e.id
        | some p => simpa [hp] using ih
    exact (hsub r.entries).nodup h.ids
  canonical p hp := by
    obtain ⟨e, he, hid, -⟩ := (r.mem_staged p.1 p.2).mp hp
    rw [← hid]
    exact h.canonical e he
  staged p hp := by
    obtain ⟨e, he, hid, hpend⟩ := (r.mem_staged p.1 p.2).mp hp
    rw [← hid]
    exact h.pending e he p.2 hpend
  pending p hp e he hid := by
    obtain ⟨e₀, he₀, hid₀, hpend⟩ := (r.mem_staged p.1 p.2).mp hp
    rw [h.eq_of_id e e₀ he he₀ (hid.trans hid₀.symm)]
    exact hpend

end

end ListKeeper
