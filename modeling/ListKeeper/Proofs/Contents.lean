import ListKeeper.Proofs.RoleSteps
import ListKeeper.Proofs.Writing

/-! What the files hold. The content that a list obtained last is in the file that its entry waits
for, or in its own file where it waits for none; what is under way has its files to itself. Where
the disk may have failed without a word (`whole` is false), a file may hold a front of its content
only. Main statements: the lemmas by which entries, additions and the refresher keep what they hold
while files of other roles change. -/
namespace ListKeeper

/-- The id under which the content of an entry is found. -/
def Entry.place (e : Entry) (promoted : Option UInt64) : UInt64 :=
  if promoted = some e.id then e.id else e.pending.getD e.id

/-- The files of an entry hold what the past says. -/
structure Entry.Filled (e : Entry) (whole : Prop) (s : Store) (t : FileTree) (p : Past)
    (promoted : Option UInt64) : Prop where
  held : ∀ body, p.latest? e.id = some body →
    s.Holds whole t (.file (e.place promoted)) body ∧ e.ruleCount = Rules.recorded body
  downloaded : ∀ q, e.pending = some q →
    ∃ body, p.latest? e.id = some body ∧ (e.url, body) ∈ p.downloads

def Adding.Filled (whole : Prop) (s : Store) (t : FileTree) : Adding → Prop
  | .write id body w => s.Progress whole t id body w
  | .insert id body => s.Holds whole t (.file id) body
  | _ => True

def AllFilled (whole : Prop) (s : Store) (t : FileTree) (adds : List (Candidate × Adding)) : Prop :=
  ∀ (caller : Nat) (c : Candidate) (stage : Adding), adds[caller]? = some (c, stage) →
    stage.Filled whole s t

/-- The pairs whose staged files are still to be renamed. -/
def Committing.left : Committing → List (UInt64 × UInt64)
  | .close pairs => pairs
  | .promote pairs _ => pairs
  | .clear _ _ rest _ => rest
  | _ => []

def Stage.Filled (whole : Prop) (s : Store) (t : FileTree) (p : Past) : Stage → Prop
  | .fetch e (.done (.ok body)) => (e.url, body) ∈ p.downloads
  | .mint e body => (e.url, body) ∈ p.downloads
  | .write e stagedId body w => (e.url, body) ∈ p.downloads ∧ s.Progress whole t stagedId body w
  | .record e stagedId body =>
    (e.url, body) ∈ p.downloads ∧ s.Holds whole t (.file stagedId) body
  | .commit c => ∀ q ∈ c.left, ∃ body, s.Has t (.file q.2) body
  | _ => True

/-- The files of a world hold what its past says. -/
structure World.Filled (w : World) (whole : Prop) (p : Past) : Prop where
  plain : w.system.store.Plain
  entries : ∀ e ∈ w.entries,
    e.Filled whole w.system.store w.system.tree p w.refresher.stage.promoting?
  adds : AllFilled whole w.system.store w.system.tree w.adds
  stage : w.refresher.stage.Filled whole w.system.store w.system.tree p

/-- The file of an id holds a front of some content, which is all of it where `whole` says so. -/
def World.Holds (w : World) (whole : Prop) (id : UInt64) (body : Bytes) : Prop :=
  w.system.store.Holds whole w.system.tree (.file id) body

namespace Past

/-- A past goes on: no list obtained anything, and no download is forgotten. -/
structure Keeps (p p' : Past) : Prop where
  latest : ∀ x, p'.latest? x = p.latest? x
  downloads : ∀ d ∈ p.downloads, d ∈ p'.downloads

theorem latest?_note (p : Past) (w : World) (a : Act) (h : w.obtains? a = none) (x : UInt64) :
    (p.note w a).latest? x = p.latest? x := by simp [latest?, note, h]

theorem downloads_note (p : Past) (w : World) (a : Act) :
    ∀ d ∈ p.downloads, d ∈ (p.note w a).downloads := fun _ hd => List.mem_append_right _ hd

theorem keeps_note (p : Past) (w : World) (a : Act) (h : w.obtains? a = none) :
    p.Keeps (p.note w a) := ⟨p.latest?_note w a h, p.downloads_note w a⟩

theorem latest?_obtained (p : Past) (w : World) (a : Act) (id : UInt64) (body : Bytes)
    (h : w.obtains? a = some (id, body)) (x : UInt64) :
    (p.note w a).latest? x = if x = id then some body else p.latest? x := by
  by_cases hx : x = id
  · simp [latest?, note, h, hx]
  · have hne : id ≠ x := fun he => hx he.symm
    simp [latest?, note, h, hx, hne]

end Past

/-! ### Files of other roles change -/

section

variable {role : UInt64 → Role} {es : List Entry} {s : Store} {t t' : FileTree} {xs : List Slot}
variable {p p' : Past} {whole : Prop}

theorem not_mem_of_role {r : Role} (hx : ∀ x ∈ xs, role x.id = r) (y : Slot)
    (hy : role y.id ≠ r) : y ∉ xs := fun hmem => hy (hx y hmem)

theorem Entry.Filled.keep {e : Entry} {promoted : Option UInt64} (h : e.Filled whole s t p promoted)
    (hk : s.Keeps t t' xs) (hx : .file (e.place promoted) ∉ xs)
    (hlatest : p'.latest? e.id = p.latest? e.id) (hdown : ∀ d ∈ p.downloads, d ∈ p'.downloads) :
    e.Filled whole s t' p' promoted := by
  constructor
  · intro body hbody
    obtain ⟨hhas, hcount⟩ := h.held body (hlatest ▸ hbody)
    exact ⟨hk.holds hx hhas, hcount⟩
  · intro q hq
    obtain ⟨body, hbody, hmem⟩ := h.downloaded q hq
    exact ⟨body, hlatest.trans hbody, hdown _ hmem⟩

theorem Entry.Filled.same {e x : Entry} {promoted promoted' : Option UInt64}
    (h : x.Filled whole s t p promoted) (hid : e.id = x.id) (hurl : e.url = x.url)
    (hcount : e.ruleCount = x.ruleCount) (hplace : e.place promoted' = x.place promoted)
    (hpend : ∀ q, e.pending = some q → x.pending = some q) : e.Filled whole s t p promoted' where
  held := by
    rw [hid, hplace, hcount]
    exact h.held
  downloaded q hq := by
    rw [hid, hurl]
    exact h.downloaded q (hpend q hq)

/-- The entry of a list that was added holds what was written for it. -/
theorem Entry.Filled.inserted {id : UInt64} {body : Bytes} (h : s.Holds whole t (.file id) body)
    (hlatest : p.latest? id = some body) (c : Candidate) (now : Instant) (period : Span)
    (promoted : Option UInt64) : (c.entry id body now period).Filled whole s t p promoted where
  held body' hbody' := by
    obtain rfl := Option.some.inj (hlatest.symm.trans hbody')
    have hplace : (c.entry id body now period).place promoted = id := by
      unfold Entry.place
      split <;> rfl
    rw [hplace]
    exact ⟨h, rfl⟩
  downloaded q hq := by cases hq

/-- An entry with which a file is recorded holds what that file holds. -/
theorem Entry.Filled.staged {e : Entry} {stagedId : UInt64} {body : Bytes} {now : Instant}
    (h : s.Holds whole t (.file stagedId) body) (hlatest : p.latest? e.id = some body)
    (hdown : (e.url, body) ∈ p.downloads) :
    (e.staged stagedId (Rules.recorded body) now).Filled whole s t p none where
  held body' hbody' := by
    obtain rfl := Option.some.inj (hlatest.symm.trans hbody')
    exact ⟨h, rfl⟩
  downloaded _ _ := ⟨body, hlatest, hdown⟩

theorem Entry.place_of_ne (e : Entry) (id : UInt64) (h : e.id ≠ id) :
    e.place (some id) = e.place none := by
  have hne : id ≠ e.id := fun he => h he.symm
  simp [Entry.place, hne]

theorem Entry.place_eq_id (e : Entry) (promoted : Option UInt64)
    (h : promoted = some e.id ∨ e.pending = none) : e.place promoted = e.id := by
  unfold Entry.place
  split
  · rfl
  · rcases h with h | h
    · contradiction
    · rw [h]
      rfl

/-- An entry whose staged file was renamed to its own holds in its own what it held in that. -/
theorem Entry.Filled.renamed {e : Entry} {stagedId : UInt64} (h : e.Filled whole s t p none)
    (hpend : e.pending = some stagedId)
    (hmoved : ∀ body, s.Has t (.file stagedId) body → s.Has t' (.file e.id) body)
    (hp : p.Keeps p') : e.Filled whole s t' p' (some e.id) := by
  refine ⟨?_, fun q hq => ?_⟩
  · intro body hbody
    obtain ⟨hold, hcount⟩ := h.held body (hp.latest e.id ▸ hbody)
    have hplace : e.place none = stagedId := by simp [Entry.place, hpend]
    rw [hplace] at hold
    rw [e.place_eq_id _ (.inl rfl)]
    exact ⟨hold.move hmoved, hcount⟩
  · obtain ⟨body, hbody, hmem⟩ := h.downloaded q hq
    exact ⟨body, (hp.latest e.id).trans hbody, hp.downloads _ hmem⟩

/-- An entry depends on its own file or on the one that is staged for it. -/
theorem Table.place_cases (h : Table role es) (e : Entry) (he : e ∈ es)
    (promoted : Option UInt64) :
    e.place promoted = e.id ∨ role (e.place promoted) = .staged e.id := by
  unfold Entry.place
  split
  · exact .inl rfl
  · cases hpend : e.pending with
    | none => exact .inl rfl
    | some q => exact .inr (h.pending e he q hpend)

theorem Table.place_lasts (h : Table role es) (e : Entry) (he : e ∈ es)
    (promoted : Option UInt64) : (role (e.place promoted)).Lasts := by
  rcases h.place_cases e he promoted with hplace | hplace
  · rw [hplace, h.canonical e he]
    trivial
  · rw [hplace]
    trivial

/-- What an entry depends on stays when files change that are in no lasting role. -/
theorem Table.place_not_mem {r : Role} (ht : Table role es) (e : Entry) (he : e ∈ es)
    (promoted : Option UInt64) (hr : ¬ r.Lasts) (hx : ∀ x ∈ xs, role x.id = r) :
    .file (e.place promoted) ∉ xs := by
  -- what an entry depends on is in a role that lasts
  apply not_mem_of_role hx
  intro hrole
  apply hr
  rw [← hrole]
  exact ht.place_lasts e he promoted

/-- No entry depends on a file that nobody waits for. -/
theorem Stray.place_ne {file : UInt64} (h : Stray role es file) (ht : Table role es) (e : Entry)
    (he : e ∈ es) : e.place none ≠ file := by
  rintro rfl
  cases hpend : e.pending with
  | none =>
    have hfile := h.staged
    rw [e.place_eq_id none (.inr hpend), ht.canonical e he] at hfile
    simp at hfile
  | some q =>
    apply h.free e he
    simp [Entry.place, hpend]

theorem Stray.ne_adding {file : UInt64} (h : Stray role es file) (caller : Nat) :
    role file ≠ .adding caller := by
  rcases h.staged with hfile | ⟨id, hfile⟩ <;> simp [hfile]

theorem Stray.ne_canonical {file : UInt64} (h : Stray role es file) : role file ≠ .canonical := by
  rcases h.staged with hfile | ⟨id, hfile⟩ <;> simp [hfile]

/-- What an entry depends on is neither the file staged for another one nor the other's own. -/
theorem Table.place_not_mem_pair (h : Table role es) (e : Entry) (he : e ∈ es)
    {id stagedId : UInt64} (hne : e.id ≠ id) (hid : role id = .canonical)
    (hstaged : role stagedId = .staged id) :
    .file (e.place none) ∉ [Slot.file stagedId, Slot.file id] := by
  have hcanonical := h.canonical e he
  -- an id has one role only, so each of the four ways to coincide fails
  simp only [List.mem_cons, Slot.file.injEq, List.not_mem_nil, or_false]
  rcases h.place_cases e he none with hplace | hplace
  · rintro (heq | heq)
    · rw [← heq, hplace, hcanonical] at hstaged
      cases hstaged
    · exact hne (hplace.symm.trans heq)
  · rintro (heq | heq)
    · rw [heq, hstaged] at hplace
      exact hne (Role.staged.inj hplace).symm
    · rw [heq, hid] at hplace
      cases hplace

/-- A file that is still to be renamed is neither of those that a renaming before it touches. -/
theorem Awaited.not_mem_pair {id stagedId : UInt64} {rest : List (UInt64 × UInt64)}
    (h : Awaited role es ((id, stagedId) :: rest)) (q : UInt64 × UInt64) (hq : q ∈ rest) :
    .file q.2 ∉ [Slot.file stagedId, Slot.file id] := by
  have hid : role id = .canonical := h.canonical (id, stagedId) (by simp)
  have hstaged : role stagedId = .staged id := h.staged (id, stagedId) (by simp)
  have hrole : role q.2 = .staged q.1 := h.staged q (by simp [hq])
  have hother : q.1 ≠ id := by
    rintro rfl
    exact (List.nodup_cons.mp h.nodup).1 (List.mem_map.mpr ⟨q, hq, rfl⟩)
  simp only [List.mem_cons, Slot.file.injEq, List.not_mem_nil, or_false]
  rintro (heq | heq)
  · rw [heq, hstaged] at hrole
    exact hother (Role.staged.inj hrole).symm
  · rw [heq, hid] at hrole
    cases hrole

theorem Adding.Filled.keep {stage : Adding} (h : stage.Filled whole s t) (hk : s.Keeps t t' xs)
    (hx : ∀ id, stage.id? = some id → ∀ x ∈ xs, x.id ≠ id) : stage.Filled whole s t' := by
  cases stage with
  | write id body w =>
    have hid := hx id rfl
    exact Store.Progress.keep h hk (fun hmem => hid _ hmem rfl) fun hmem => hid _ hmem rfl
  | insert id body => exact hk.holds (fun hmem => hx id rfl _ hmem rfl) h
  | _ => trivial

theorem Adding.Filled.mono {whole' : Prop} {stage : Adding} (h : stage.Filled whole s t)
    (hwhole : whole' → whole) : stage.Filled whole' s t := by
  cases stage with
  | write id body w => exact Store.Progress.mono h hwhole
  | insert id body => exact Store.Holds.mono h hwhole
  | _ => trivial

/-- What an addition has brought about is still there after a quiet step. -/
theorem Adding.Quiet.filled {c : Candidate} {m : Moment} {s : System} {stage stage' : Adding}
    (hquiet : stage.Quiet c m s stage') (h : stage.Filled whole s.store s.tree) :
    stage'.Filled whole s.store s.tree := by
  cases hquiet with
  | written id body => exact h
  | _ => trivial

/-- The additions under way keep what they brought about. -/
theorem Held.filled {adds : List (Candidate × Adding)} (hh : Held role adds)
    (h : AllFilled whole s t adds) (hk : s.Keeps t t' xs)
    (hx : ∀ x ∈ xs, ∀ caller, role x.id ≠ .adding caller) : AllFilled whole s t' adds := by
  intro caller c stage hadd
  -- an addition depends on the files of the id that it holds, which changed only if it is its own
  refine (h caller c stage hadd).keep hk ?_
  rintro id hid x hmem rfl
  exact hx x hmem caller (hh caller c stage _ hadd hid)

/-- The refresher keeps what it brought about while an addition writes. -/
theorem Stage.Filled.keep {stage : Stage} (h : stage.Filled whole s t p) (caller : Nat)
    (hs : stage.Sound role es) (hk : s.Keeps t t' xs)
    (hx : ∀ x ∈ xs, role x.id = .adding caller) (hdown : ∀ d ∈ p.downloads, d ∈ p'.downloads) :
    stage.Filled whole s t' p' := by
  -- the files of the refresher are in other roles than that of the addition
  have hfree (y : Slot) (r : Role) (hy : role y.id = r) (hr : r ≠ .adding caller) : y ∉ xs :=
    not_mem_of_role hx y (by rwa [hy])
  cases stage with
  | fetch e f =>
    cases f with
    | done outcome =>
      cases outcome with
      | ok body => exact hdown _ h
      | error cause => trivial
    | _ => trivial
  | mint e body => exact hdown _ h
  | write e stagedId body w =>
    have hfile := hfree (.file stagedId) _ hs.2 (by simp)
    have htemp := hfree (.temp stagedId) _ hs.2 (by simp)
    exact ⟨hdown _ h.1, h.2.keep hk hfile htemp⟩
  | record e stagedId body =>
    exact ⟨hdown _ h.1, hk.holds (hfree (.file stagedId) _ hs.2 (by simp)) h.2⟩
  | commit c =>
    have hsub : ∀ q ∈ c.left, q ∈ c.pairs := by
      cases c <;> simp_all [Committing.left, Committing.pairs]
    intro q hq
    obtain ⟨body, hhas⟩ := h q hq
    exact ⟨body, hk.has _ (hfree (.file q.2) _ (hs.staged q (hsub q hq)) (by simp)) _ hhas⟩
  | _ => trivial

end

end ListKeeper
