import Mathlib.Data.List.Induction
import ListKeeper.Proofs.Ownership
import ListKeeper.Proofs.Waiting

/-! What a run leaves behind. Every file that was written is answered for by someone as long as it
is there: by an addition or a pass under way, by an entry that is or was registered, or by a deleted
one that was waiting for it. Where nothing is under way only the entries are left to do so, and no
temporary file is. Main statement: `Run.nothing_left`. -/
namespace ListKeeper

def Adding.Owns : Adding → Slot → Prop
  | .write id _ w, x => w.Owns id x
  | .insert id _, x => x = .file id
  | .withdraw id, x => x = .file id
  | _, _ => False

def Adding.Relies : Adding → Slot → Prop
  | .write id _ w, x => w.Relies id x
  | _, _ => False

namespace Stage

def Owns : Stage → Slot → Prop
  | .write _ stagedId _ w, x => w.Owns stagedId x
  | .record _ stagedId _, x => x = .file stagedId
  | .tidy file, x => x = .file file
  | _, _ => False

/-- What a pass has put there, and what it is to rename. -/
def Relies : Stage → Slot → Prop
  | .write _ stagedId _ w, x => w.Relies stagedId x
  | .record _ stagedId _, x => x = .file stagedId
  | .commit c, x => ∃ q ∈ c.left, x = .file q.2
  | _, _ => False

def targets : Stage → List UInt64
  | .commit c => c.left.map (·.1)
  | _ => []

def clearing? : Stage → Option (UInt64 × UInt64)
  | .commit (.clear id stagedId _ _) => some (id, stagedId)
  | _ => none

end Stage

/-- The id of a list that was registered at some time. -/
def System.Listed (start : List Entry) (s : System) (id : UInt64) : Prop :=
  ∃ e, (e ∈ start ∨ .added e ∈ s.journal) ∧ e.id = id

theorem System.Listed.mono {start : List Entry} {s s' : System} {id : UInt64}
    (h : s.Listed start id) (hjournal : ∀ event ∈ s.journal, event ∈ s'.journal) :
    s'.Listed start id := by
  obtain ⟨e, he, hid⟩ := h
  exact ⟨e, he.imp_right (hjournal _), hid⟩

theorem System.Still.mem_journal {s s' : System} (h : s.Still s') :
    ∀ event ∈ s.journal, event ∈ s'.journal := by
  intro event hevent
  rcases h.journal with heq | ⟨url, heq⟩ <;> simp [heq, hevent]

/-- Who answers for a file. An entry answers for the one that it waits for, but not while the word
that this was renamed is on its way. -/
inductive World.Accounts (start : List Entry) (w : World) : Slot → Prop
  | listed (id : UInt64) (h : w.system.Listed start id) : Accounts start w (.file id)
  | pending (e : Entry) (p : UInt64) (he : e ∈ w.entries) (hp : e.pending = some p)
      (hclear : w.refresher.stage.clearing? ≠ some (e.id, p)) : Accounts start w (.file p)
  | dropped (e : Entry) (p : UInt64) (he : .deleted e ∈ w.system.journal)
      (hp : e.pending = some p) : Accounts start w (.file p)
  | adding (x : Slot) (i : Nat) (c : Candidate) (stage : Adding)
      (hadd : w.adds[i]? = some (c, stage)) (hown : stage.Owns x) : Accounts start w x
  | refreshing (x : Slot) (hown : w.refresher.stage.Owns x) : Accounts start w x

/-- Every file that was written is answered for as long as it is there. -/
structure World.Neat (start : List Entry) (written : List String) (w : World) : Prop where
  plain : w.system.store.Plain
  free : ∀ x : Slot, x.path w.system.store ∈ written →
    w.system.tree.isDirectory (x.path w.system.store) = false
  listed : ∀ e ∈ w.entries, w.system.Listed start e.id
  pending : ∀ e ∈ w.entries, ∀ p, e.pending = some p →
    (Slot.file p).path w.system.store ∈ written
  adds : ∀ (i : Nat) (c : Candidate) (stage : Adding), w.adds[i]? = some (c, stage) →
    ∀ x : Slot, stage.Relies x → x.path w.system.store ∈ written
  stage : ∀ x : Slot, w.refresher.stage.Relies x → x.path w.system.store ∈ written
  targets : ∀ id ∈ w.refresher.stage.targets, w.system.Listed start id
  accounted : ∀ x : Slot, x.path w.system.store ∈ written →
    (∃ body, w.system.store.Has w.system.tree x body) → w.Accounts start x

/-- The files that a step takes away, as far as they were written, can be taken away. -/
def World.Removes (w : World) (written : List String) (a : Act) : Prop :=
  ∀ m, a.moment? = some m → Store.Removable m.disk w.system.tree written (w.op? a)

theorem Adding.Quiet.owns {c : Candidate} {m : Moment} {s : System} {stage stage' : Adding}
    (h : stage.Quiet c m s stage') (x : Slot) :
    (stage.Owns x → stage'.Owns x) ∧ (stage'.Relies x → stage.Relies x) := by
  cases h <;> exact ⟨fun hx => hx, fun hx => by first | exact hx | exact hx.elim⟩

theorem Stage.Quiet.owns {m : Moment} {stage stage' : Stage} (h : stage.Quiet m stage') (x : Slot) :
    (stage.Owns x → stage'.Owns x) ∧ (stage'.Relies x → stage.Relies x) := by
  cases h <;> exact ⟨fun hx => hx, fun hx => by first | exact hx | exact hx.elim⟩

namespace World

variable {w : World} {start : List Entry} {written more : List String}

/-- An addition goes on and answers for what it writes, until its entry does. -/
theorem Neat.addOn (h : w.Neat start written) {caller : Nat} {c : Candidate} {stage stage' : Adding}
    (hadd : w.adds[caller]? = some (c, stage)) {s' : System}
    (hstore : s'.store = w.system.store)
    (hentries : ∀ e ∈ s'.registry.entries,
      e ∈ w.entries ∨ s'.Listed start e.id ∧ e.pending = none)
    (hkeep : ∀ e ∈ w.entries, e ∈ s'.registry.entries)
    (hjournal : ∀ event ∈ w.system.journal, event ∈ s'.journal)
    (hanswers : w.system.store.Answers w.system.tree s'.tree written more stage.Owns
      fun x => stage'.Owns x ∨ ∃ id, x = .file id ∧ s'.Listed start id)
    (hrelies : ∀ x : Slot, stage'.Relies x → x.path w.system.store ∈ written ++ more) :
    World.Neat start (written ++ more)
      { w with system := s', adds := w.adds.set caller (c, stage') } := by
  have hlen : caller < w.adds.length := (List.getElem?_eq_some_iff.mp hadd).1
  rw [← hstore] at hanswers hrelies
  refine ⟨hstore ▸ h.plain, hanswers.free, ?listed, ?pending, ?adds, ?stage, ?targets, ?accounted⟩
  case listed =>
    intro e he
    rcases hentries e he with he | ⟨hlisted, -⟩
    · exact (h.listed e he).mono hjournal
    · exact hlisted
  case pending =>
    intro e he p hp
    rcases hentries e he with he | ⟨-, hnone⟩
    · rw [hstore]
      exact List.mem_append_left _ (h.pending e he p hp)
    · rw [hnone] at hp
      cases hp
  case adds =>
    intro i c' st hi x hx
    rcases getElem?_set_cases _ _ _ _ _ hi with ⟨-, he⟩ | ⟨-, hi⟩
    · obtain ⟨-, rfl⟩ := Prod.mk.inj he
      exact hrelies x hx
    · rw [hstore]
      exact List.mem_append_left _ (h.adds i c' st hi x hx)
  case stage =>
    intro x hx
    rw [hstore]
    exact List.mem_append_left _ (h.stage x hx)
  case targets => exact fun id hid => (h.targets id hid).mono hjournal
  case accounted =>
    intro x hx hhas
    rcases hanswers.owned x hx hhas with (hown | ⟨id, rfl, hlisted⟩) | ⟨hno, hwritten, hbefore⟩
    · exact .adding x caller c stage' (by simp [hlen]) hown
    · exact .listed id hlisted
    -- who answered for the file before was someone else, and still does
    · rw [hstore] at hwritten hbefore
      cases h.accounted x hwritten hbefore with
      | listed id hlisted => exact .listed id (hlisted.mono hjournal)
      | pending e p he hp hclear => exact .pending e p (hkeep e he) hp hclear
      | dropped e p he hp => exact .dropped e p (hjournal _ he) hp
      | adding _ i c' st hi hown =>
        have hne : caller ≠ i := by
          rintro rfl
          rw [hadd] at hi
          obtain ⟨-, rfl⟩ := Prod.mk.inj (Option.some.inj hi)
          exact hno hown
        exact .adding x i c' st (by rw [List.getElem?_set_ne hne, hi]) hown
      | refreshing _ hown => exact .refreshing x hown

/-- A pass goes on and answers for what it writes, and no entry changes. -/
theorem Neat.goOn (h : w.Neat start written) {s' : System} {r' : Refresher}
    (hstore : s'.store = w.system.store) (hregistry : s'.registry = w.system.registry)
    (hjournal : ∀ event ∈ w.system.journal, event ∈ s'.journal)
    (hanswers : w.system.store.Answers w.system.tree s'.tree written more w.refresher.stage.Owns
      fun x => r'.stage.Owns x ∨ ∃ id, x = .file id ∧ s'.Listed start id)
    (hrelies : ∀ x : Slot, r'.stage.Relies x → x.path w.system.store ∈ written ++ more)
    (htargets : ∀ id ∈ r'.stage.targets, s'.Listed start id)
    (hclearing : ∀ q, r'.stage.clearing? = some q →
      w.system.store.Vacant s'.tree (.file q.2)) :
    World.Neat start (written ++ more) { w with system := s', refresher := r' } := by
  have hentries : ∀ e, e ∈ s'.registry.entries ↔ e ∈ w.entries := by
    rw [hregistry]
    exact fun e => Iff.rfl
  rw [← hstore] at hanswers hrelies hclearing
  refine ⟨hstore ▸ h.plain, hanswers.free, ?listed, ?pending, ?adds, hrelies, htargets, ?accounted⟩
  case listed => exact fun e he => (h.listed e ((hentries e).mp he)).mono hjournal
  case pending =>
    intro e he p hp
    rw [hstore]
    exact List.mem_append_left _ (h.pending e ((hentries e).mp he) p hp)
  case adds =>
    intro i c st hi x hx
    rw [hstore]
    exact List.mem_append_left _ (h.adds i c st hi x hx)
  case accounted =>
    rintro x hx ⟨body, hhas⟩
    rcases hanswers.owned x hx ⟨body, hhas⟩ with
      (hown | ⟨id, rfl, hlisted⟩) | ⟨hno, hwritten, hbefore⟩
    · exact .refreshing x hown
    · exact .listed id hlisted
    -- who answered for the file before still does, if it was not the refresher
    · rw [hstore] at hwritten hbefore
      cases h.accounted x hwritten hbefore with
      | listed id hlisted => exact .listed id (hlisted.mono hjournal)
      | pending e p he hp hclear =>
        refine .pending e p ((hentries e).mpr he) hp fun hnow => ?_
        exact hclearing _ hnow body hhas
      | dropped e p he hp => exact .dropped e p (hjournal _ he) hp
      | adding _ i c st hi hown => exact .adding x i c st hi hown
      | refreshing _ hown => exact absurd hown hno

/-- A pass changes one entry, and lets go only of files that this one answers for from then on. -/
theorem Neat.replace (h : w.Neat start written) {pre post : List Entry} {x y : Entry}
    (hsplit : w.entries = pre ++ x :: post) (hid : y.id = x.id) {s' : System} {r' : Refresher}
    (hstore : s'.store = w.system.store) (htree : s'.tree = w.system.tree)
    (hentries : s'.registry.entries = pre ++ y :: post)
    (hjournal : ∀ event ∈ w.system.journal, event ∈ s'.journal)
    (hpending : ∀ p, y.pending = some p → (Slot.file p).path w.system.store ∈ written)
    (hrelies : ∀ z, r'.stage.Relies z → z.path w.system.store ∈ written)
    (htargets : ∀ id ∈ r'.stage.targets, s'.Listed start id)
    (hclearing : r'.stage.clearing? = none)
    (howns : ∀ z, w.refresher.stage.Owns z → ∃ p, z = .file p ∧ y.pending = some p)
    (hleft : ∀ p, x.pending = some p → w.refresher.stage.clearing? ≠ some (x.id, p) →
      y.pending = some p ∨ r'.stage.Owns (.file p) ∨ s'.Listed start p) :
    World.Neat start written { w with system := s', refresher := r' } := by
  have hmem : y ∈ s'.registry.entries := by simp [hentries]
  have hno (q : UInt64 × UInt64) : r'.stage.clearing? ≠ some q := by simp [hclearing]
  -- an entry is the changed one or one of those that stayed
  have hcases (e : Entry) (he : e ∈ s'.registry.entries) : e = y ∨ e ∈ w.entries := by
    rw [hentries] at he
    rw [hsplit]
    exact Registry.eq_or_mem_of_replaced x he
  have hkept (e : Entry) (he : e ∈ w.entries) : e = x ∨ e ∈ s'.registry.entries := by
    rw [hsplit] at he
    rw [hentries]
    exact Registry.eq_or_mem_of_replaced y he
  refine ⟨hstore ▸ h.plain, ?free, ?listed, ?pending, ?adds, ?stage, htargets, ?accounted⟩
  case free =>
    simp only [hstore, htree]
    exact h.free
  case listed =>
    intro e he
    rcases hcases e he with rfl | he
    · rw [hid]
      exact (h.listed x (by simp [hsplit])).mono hjournal
    · exact (h.listed e he).mono hjournal
  case pending =>
    intro e he p hp
    simp only [hstore]
    rcases hcases e he with rfl | he
    · exact hpending p hp
    · exact h.pending e he p hp
  case adds =>
    simp only [hstore]
    exact h.adds
  case stage =>
    simp only [hstore]
    exact hrelies
  case accounted =>
    simp only [hstore, htree]
    intro z hz hhas
    cases h.accounted z hz hhas with
    | listed id hlisted => exact .listed id (hlisted.mono hjournal)
    | pending e p he hp hclear =>
      rcases hkept e he with rfl | he
      · rcases hleft p hp hclear with hp | hown | hlisted
        · exact .pending y p hmem hp (hno _)
        · exact .refreshing _ hown
        · exact .listed p hlisted
      · exact .pending e p he hp (hno _)
    | dropped e p he hp => exact .dropped e p (hjournal _ he) hp
    | adding _ i c st hi hown => exact .adding z i c st hi hown
    | refreshing _ hown =>
      obtain ⟨p, rfl, hp⟩ := howns z hown
      exact .pending y p hmem hp (hno _)

/-! ### Steps -/

theorem mem_note (s : System) (event : Event) : ∀ x ∈ s.journal, x ∈ (s.note event).journal :=
  fun _ hx => List.mem_append_left _ hx

/-- An addition takes a step. -/
theorem Neat.add (h : w.Neat start written) (caller : Nat) (m : Moment)
    (hremove : w.Removes written (.add caller m)) :
    World.Neat start (written ++ (w.puts? (.add caller m)).toList) (w.step (.add caller m)) := by
  have hremove := hremove m rfl
  cases hadd : w.adds[caller]? with
  | none =>
    simpa [World.step, puts?, Act.moment?, op?, hadd] using h
  | some q =>
    obtain ⟨c, stage⟩ := q
    have hrelies := h.adds caller c stage hadd
    have hsteps := stage.steps c (caller + 1) m w.system
    have hputs : w.puts? (.add caller m) = (stage.op? w.system.store m.disk.chunk).bind
        fun op => op.putsOn? m.disk w.system.tree := by
      simp [puts?, Act.moment?, op?, hadd]
    simp only [World.step, World.op?, hadd, hputs] at hremove ⊢
    generalize stage.step c (caller + 1) m w.system = out at hsteps ⊢
    cases hsteps with
    | quiet stage stage' s' hquiet hstill =>
      -- a quiet step touches no file
      have hno : stage.op? w.system.store m.disk.chunk = none := by cases hquiet <;> rfl
      have hentries : s'.registry.entries = w.entries := congrArg Registry.entries hstill.registry
      rw [hno]
      refine h.addOn hadd hstill.store (fun e he => .inl (hentries ▸ he))
        (fun e he => hentries.symm ▸ he) hstill.mem_journal ?_ ?_
      · rw [hstill.tree]
        exact .still h.free fun x hx => .inl ((hquiet.owns x).1 hx)
      · exact fun x hx => List.mem_append_left _ (hrelies x ((hquiet.owns x).2 hx))
    | minted =>
      exact h.addOn hadd rfl (fun e he => .inl he) (fun e he => he) (fun event he => he)
        (.still h.free fun x hx => hx.elim) fun x hx => hx.elim
    | writing id body wr =>
      obtain ⟨hanswers, hrelies'⟩ :=
        Store.writeStep_answers h.plain id body m.disk wr h.free hrelies hremove
      refine h.addOn hadd rfl (fun e he => .inl he) (fun e he => he) (fun event he => he)
        ⟨hanswers.free, fun x hx hhas => ?_⟩ hrelies'
      exact (hanswers.owned x hx hhas).imp_left .inl
    | inserted id body hfree =>
      -- the file that was written is that of a list now
      have hlisted : System.Listed start ({ w.system with
          registry := w.system.registry.append (c.entry id body m.now w.system.period) }.note
            (.added (c.entry id body m.now w.system.period))) id :=
        ⟨c.entry id body m.now w.system.period, .inr (by simp [System.note]), rfl⟩
      refine h.addOn hadd rfl (fun e he => ?_) (fun e he => List.mem_append_left _ he)
        (mem_note _ _) (.still h.free ?_) fun x hx => hx.elim
      · rcases List.mem_append.mp he with he | he
        · exact .inl he
        · rw [List.mem_singleton.mp he]
          exact .inr ⟨hlisted, rfl⟩
      · rintro x rfl
        exact .inr ⟨id, rfl, hlisted⟩
    | withdrawn id =>
      have hentries : (w.system.discard m.disk id).registry.entries = w.entries :=
        congrArg Registry.entries (w.system.discard_registry m.disk id)
      have hanswers := Store.remove_answers h.plain m.disk (.file id) h.free hremove
      have hnothing : ((Adding.withdraw id).op? w.system.store m.disk.chunk).bind
          (fun op => op.putsOn? m.disk w.system.tree) = none :=
        FileOp.putsOn?_remove m.disk w.system.tree _
      rw [hnothing]
      refine h.addOn hadd (w.system.discard_store m.disk id) (fun e he => .inl (hentries ▸ he))
        (fun e he => hentries.symm ▸ he) (by rw [w.system.discard_journal m.disk id]; simp)
        ?_ fun x hx => hx.elim
      rw [w.system.discard_tree m.disk id]
      exact ⟨hanswers.free, fun x hx hhas => (hanswers.owned x hx hhas).imp_left False.elim⟩

/-- A deletion leaves the file that its entry waits for to the deleted entry. -/
theorem Neat.delete (h : w.Neat start written) (url : String) :
    World.Neat start written (w.step (.delete url)) := by
  rcases w.system.delete_cases url with ⟨hsame, -⟩ | ⟨pre, x, post, -, -, hsplit, hdelete⟩
  · simpa only [World.step, hsame] using h
  simp only [World.step, hdelete]
  have hjournal := mem_note { w.system with registry := ⟨pre ++ post⟩ } (.deleted x)
  have hsub : ∀ e ∈ pre ++ post, e ∈ w.entries := by
    intro e he
    rw [World.entries, hsplit]
    exact Registry.mem_of_removed x he
  have hkept (e : Entry) (he : e ∈ w.entries) : e = x ∨ e ∈ pre ++ post := by
    rw [World.entries, hsplit] at he
    exact Registry.eq_or_mem_of_removed he
  refine ⟨h.plain, h.free, fun e he => (h.listed e (hsub e he)).mono hjournal,
    fun e he => h.pending e (hsub e he), h.adds, h.stage,
    fun id hid => (h.targets id hid).mono hjournal, ?_⟩
  intro z hz hhas
  cases h.accounted z hz hhas with
  | listed id hlisted => exact .listed id (hlisted.mono hjournal)
  | pending e p he hp hclear =>
    rcases hkept e he with rfl | he
    · exact .dropped e p (by simp [System.note]) hp
    · exact .pending e p he hp hclear
  | dropped e p he hp => exact .dropped e p (hjournal _ he) hp
  | adding _ i c st hi hown => exact .adding z i c st hi hown
  | refreshing _ hown => exact .refreshing z hown

/-- What a commit may have left to rename are files that were written, to the files of lists. -/
def Renamable (start : List Entry) (written : List String) (w : World)
    (pairs : List (UInt64 × UInt64)) : Prop :=
  ∀ q ∈ pairs, (Slot.file q.2).path w.system.store ∈ written ∧ w.system.Listed start q.1

@[simp]
theorem Renamable.nil : w.Renamable start written [] := by
  simp [Renamable]

theorem Renamable.relies {c : Committing} (h : w.Renamable start written c.left) (x : Slot)
    (hx : (Stage.commit c).Relies x) : x.path w.system.store ∈ written := by
  obtain ⟨q, hq, rfl⟩ := hx
  exact (h q hq).1

theorem Renamable.listed {c : Committing} (h : w.Renamable start written c.left) (id : UInt64)
    (hid : id ∈ (Stage.commit c).targets) : w.system.Listed start id := by
  obtain ⟨q, hq, rfl⟩ := List.mem_map.mp hid
  exact (h q hq).2

section

variable {dirty : Bool} {report : PassReport}

/-- A commit goes on without a change to files and entries. -/
theorem Neat.commitOn (h : w.Neat start written) {s' : System} {c' : Committing}
    (hstore : s'.store = w.system.store) (hregistry : s'.registry = w.system.registry)
    (htree : s'.tree = w.system.tree) (hjournal : ∀ event ∈ w.system.journal, event ∈ s'.journal)
    (howns : ∀ x, ¬ w.refresher.stage.Owns x)
    (hleft : w.Renamable start written c'.left)
    (hclearing : (Stage.commit c').clearing? = none) :
    World.Neat start (written ++ [])
      { w with system := s', refresher := ⟨.commit c', dirty, report⟩ } := by
  refine h.goOn hstore hregistry hjournal ?_ ?_ ?_ (by simp [hclearing])
  · rw [htree]
    exact .still h.free fun x hx => absurd hx (howns x)
  · exact fun x hx => List.mem_append_left _ (hleft.relies x hx)
  · exact fun id hid => (hleft.listed id hid).mono hjournal

/-- A commit forgets a staged file with its entry, which nobody has to answer for any more. -/
theorem Neat.clear (h : w.Neat start written) (id stagedId : UInt64)
    (rest : List (UInt64 × UInt64)) (rep : CommitReport) (howns : ∀ x, ¬ w.refresher.stage.Owns x)
    (hrest : w.Renamable start written rest)
    (hgone : w.refresher.stage.clearing? = some (id, stagedId) ∨ stagedId = id) :
    World.Neat start (written ++ [])
      { w with
        system := { w.system with registry := (w.system.registry.clearPending id stagedId).2 }
        refresher := ⟨.commit (.promote rest rep), dirty, report⟩ } := by
  rcases w.system.registry.clearPending_cases id stagedId with
    ⟨hsame, -⟩ | ⟨pre, x, post, hclear, hsplit, rfl, hpend⟩
  · rw [hsame]
    exact h.commitOn rfl rfl rfl (fun event he => he) howns hrest rfl
  · rw [hclear, List.append_nil]
    refine h.replace (y := x.settled) hsplit rfl rfl rfl rfl (fun event he => he)
      (by simp [Entry.settled]) hrest.relies hrest.listed rfl (fun z hz => absurd hz (howns z)) ?_
    intro p hp hnot
    obtain rfl := Option.some.inj (hpend.symm.trans hp)
    rcases hgone with hclearing | rfl
    · exact absurd hclearing hnot
    -- a list's own file is answered for by the list
    · exact .inr (.inr (h.listed x (by simp [World.entries, hsplit])))

/-- A commit renames a staged file, and the list answers for the one that it becomes. -/
theorem Neat.renamed (h : w.Neat start written) {t : FileTree} {id stagedId : UInt64}
    (hok : w.system.tree.rename (w.system.store.pathFor stagedId) (w.system.store.pathFor id) =
      .ok t)
    (hdiff : stagedId ≠ id) (rest : List (UInt64 × UInt64)) (rep : CommitReport)
    (howns : ∀ x, ¬ w.refresher.stage.Owns x)
    (hwritten : (Slot.file stagedId).path w.system.store ∈ written)
    (hlisted : w.system.Listed start id) (hrest : w.Renamable start written rest) :
    World.Neat start (written ++ [w.system.store.pathFor id])
      { w with
        system := { w.system with tree := t }.note (.renamed id stagedId true)
        refresher := ⟨.commit (.clear id stagedId rest rep), dirty, report⟩ } := by
  have hopen := h.free (.file stagedId) hwritten
  have hne : Slot.file stagedId ≠ Slot.file id := by simpa using hdiff
  have hjournal := mem_note { w.system with tree := t } (.renamed id stagedId true)
  have hvacant : w.system.store.Vacant t (.file stagedId) :=
    Store.not_has_of_rename h.plain hne hopen hok
  have halters := Store.rename_alters h.plain hne hopen hok
  refine h.goOn rfl rfl hjournal (halters.answers h.free ?_ ?_ ?_) ?_ ?_ ?_
  · intro x hx
    rw [Store.eq_of_mem_puts (y := .file id) hx]
    simp
  · exact fun x _ hx => absurd hx (howns x)
  · rintro x hx ⟨body, hhas⟩
    rcases List.mem_cons.mp hx with rfl | hx
    · exact absurd hhas (hvacant body)
    · exact .inr ⟨id, List.mem_singleton.mp hx, hlisted.mono hjournal⟩
  · exact fun x hx => List.mem_append_left _ (hrest.relies x hx)
  · exact fun target hid => (hrest.listed target hid).mono hjournal
  · rintro q ⟨⟩
    exact hvacant

/-- A commit takes a step. -/
theorem Neat.commit (h : w.Neat start written) (m : Moment) (c : Committing)
    (hstage : w.refresher.stage = .commit c) :
    World.Neat start
      (written ++ ((c.op? w.system.store).bind fun op => op.putsOn? m.disk w.system.tree).toList)
      { w with
        system := (c.step m w.system).1
        refresher := ⟨.commit (c.step m w.system).2, dirty, report⟩ } := by
  -- a commit answers for no file: those it is to rename are the entries' matter
  have howns (x : Slot) : ¬ w.refresher.stage.Owns x := by simp [hstage, Stage.Owns]
  have hleft : w.Renamable start written c.left := by
    intro q hq
    refine ⟨h.stage (.file q.2) ?_, h.targets q.1 ?_⟩
    · rw [hstage]
      exact ⟨q, hq, rfl⟩
    · rw [hstage]
      exact List.mem_map_of_mem hq
  cases c with
  | snapshot =>
    simp only [Committing.step, Committing.op?, Option.bind_none, Option.toList_none]
    split
    · exact h.commitOn rfl rfl rfl (fun event he => he) howns (by simp [Committing.left]) rfl
    · refine h.commitOn rfl rfl rfl (fun event he => he) howns ?_ rfl
      intro q hq
      -- what is renamed next was written for entries, and they are listed
      obtain ⟨e, he, hid, hpend⟩ := (w.system.registry.mem_staged q.1 q.2).mp hq
      exact ⟨h.pending e he q.2 hpend, hid ▸ h.listed e he⟩
  | close pairs =>
    simp only [Committing.step, Committing.op?, Option.bind_none, Option.toList_none]
    split <;> exact h.commitOn rfl rfl rfl (mem_note _ _) howns hleft rfl
  | promote pairs rep =>
    cases pairs with
    | nil =>
      exact h.commitOn rfl rfl rfl (fun event he => he) howns
        (by simp [Committing.left, Committing.step]) rfl
    | cons q rest =>
      obtain ⟨id, stagedId⟩ := q
      obtain ⟨hwritten, hlisted⟩ := hleft (id, stagedId) (by simp [Committing.left])
      have hrest : w.Renamable start written rest := fun q hq =>
        hleft q (by simp [Committing.left, hq])
      by_cases hsame : stagedId = id
      · simp only [Committing.step, Committing.op?, if_pos hsame, Option.bind_none,
          Option.toList_none]
        exact h.clear id stagedId rest rep howns hrest (.inr hsame)
      simp only [Committing.step, Committing.op?, if_neg hsame, Option.bind_some, FileOp.putsOn?,
        FileOp.apply]
      have hpromote : w.system.store.promote w.system.tree stagedId id =
          w.system.tree.rename (w.system.store.pathFor stagedId) (w.system.store.pathFor id) := rfl
      rw [hpromote]
      cases hattempt : Store.attempt m.disk
          (w.system.tree.rename (w.system.store.pathFor stagedId) (w.system.store.pathFor id)) with
      | ok t =>
        have hok := Store.ok_of_attempt m.disk _ t hattempt
        exact h.renamed hok hsame rest rep howns hwritten hlisted hrest
      | error e => exact h.commitOn rfl rfl rfl (mem_note _ _) howns hrest rfl
  | clear id stagedId rest rep =>
    exact h.clear id stagedId rest _ howns hleft (.inl (by rw [hstage]; rfl))
  | restart rep =>
    simp only [Committing.step, Committing.op?, Option.bind_none, Option.toList_none]
    split <;> exact h.commitOn rfl rfl rfl (mem_note _ _) howns (by simp [Committing.left]) rfl
  | count rep =>
    exact h.commitOn rfl rfl rfl (fun event he => he) howns
      (by simp [Committing.left, Committing.step]) rfl
  | done rep =>
    exact h.commitOn rfl rfl rfl (fun event he => he) howns
      (by simp [Committing.left, Committing.step]) rfl

end

/-- A pass takes a step. -/
theorem Neat.refresh (h : w.Neat start written) (m : Moment)
    (hremove : w.Removes written (.refresh m)) :
    World.Neat start (written ++ (w.puts? (.refresh m)).toList) (w.step (.refresh m)) := by
  have hremove := hremove m rfl
  obtain ⟨s, adds, r⟩ := w
  have hsteps := r.steps 0 m s
  have hputs : World.puts? ⟨s, adds, r⟩ (.refresh m) =
      (r.op? s.store m.disk.chunk).bind fun op => op.putsOn? m.disk s.tree := rfl
  simp only [World.step, World.op?, hputs] at hremove ⊢
  generalize r.step 0 m s = out at hsteps ⊢
  cases hsteps with
  | quiet stage stage' dirty dirty' report report' s' hquiet hstill =>
    have hno : Refresher.op? s.store m.disk.chunk ⟨stage, dirty, report⟩ = none := by
      cases hquiet <;> rfl
    have htargets : stage'.targets = [] := by cases hquiet <;> rfl
    have hclearing : stage'.clearing? = none := by cases hquiet <;> rfl
    rw [hno]
    refine h.goOn hstill.store hstill.registry hstill.mem_journal ?_ ?_ (by simp [htargets])
      (by simp [hclearing])
    · rw [hstill.tree]
      exact .still h.free fun x hx => .inl ((hquiet.owns x).1 hx)
    · exact fun x hx => List.mem_append_left _ (h.stage x ((hquiet.owns x).2 hx))
  | selected pre post x dirty report hsplit =>
    rw [show Refresher.op? s.store m.disk.chunk ⟨.select, dirty, report⟩ = none from rfl]
    simp only [Option.bind_none, Option.toList_none, List.append_nil]
    refine h.replace (y := x.reserve m.now s.period) hsplit rfl rfl rfl rfl (mem_note _ _) ?_
      (fun z hz => hz.elim) (by simp [Stage.targets]) rfl (fun z hz => hz.elim)
      fun p hp _ => .inl hp
    exact fun p hp => h.pending x (by simp [World.entries, hsplit]) p hp
  | exhausted dirty report =>
    rw [show Refresher.op? s.store m.disk.chunk ⟨.select, dirty, report⟩ = none from rfl]
    cases dirty || s.registry.hasPending with
    | true =>
      exact h.commitOn rfl rfl rfl (fun event he => he) (fun x hx => hx)
        (by simp [Committing.left]) rfl
    | false =>
      exact h.goOn rfl rfl (fun event he => he) (.still h.free fun x hx => hx.elim)
        (fun x hx => hx.elim) (by simp [Stage.targets]) (by simp [Stage.clearing?])
  | minted e body dirty report =>
    exact h.goOn rfl rfl (fun event he => he) (.still h.free fun x hx => hx.elim)
      (fun x hx => hx.elim) (by simp [Stage.targets]) (by simp [Stage.clearing?])
  | writing e stagedId body wr dirty report =>
    obtain ⟨hanswers, hrelies⟩ :=
      Store.writeStep_answers h.plain stagedId body m.disk wr h.free h.stage hremove
    refine h.goOn rfl rfl (fun event he => he) ⟨hanswers.free, fun x hx hhas => ?_⟩ hrelies
      (by simp [Stage.targets]) (by simp [Stage.clearing?])
    exact (hanswers.owned x hx hhas).imp_left .inl
  | recorded pre post x e stagedId body dirty report next hsplit hid hnext =>
    rw [show Refresher.op? s.store m.disk.chunk ⟨.record e stagedId body, dirty, report⟩ = none
      from rfl]
    simp only [Option.bind_none, Option.toList_none, List.append_nil]
    have hplain : next.targets = [] ∧ next.clearing? = none ∧ ∀ z, ¬ next.Relies z := by
      rcases hnext with ⟨rfl, -⟩ | ⟨old, rfl, -⟩ <;> exact ⟨rfl, rfl, fun z hz => hz⟩
    refine h.replace (y := x.staged stagedId (Rules.recorded body) m.now) hsplit rfl rfl rfl rfl
      (mem_note _ _) ?_ (fun z hz => absurd hz (hplain.2.2 z)) (by simp [hplain.1]) hplain.2.1 ?_ ?_
    · rintro p ⟨⟩
      exact h.stage (.file stagedId) rfl
    · exact fun z hz => ⟨stagedId, hz, rfl⟩
    -- the file that was pending before is taken away, unless it is the list's own one
    · intro p hp _
      rcases hnext with ⟨rfl, hown⟩ | ⟨old, rfl, hold⟩
      · have hlisted := h.listed x (by simp [World.entries, hsplit])
        rw [hid, ← hown p hp] at hlisted
        exact .inr (.inr (hlisted.mono (mem_note _ _)))
      · obtain rfl := Option.some.inj (hold.symm.trans hp)
        exact .inr (.inl rfl)
  | orphaned e stagedId body dirty report =>
    exact h.goOn rfl rfl (fun event he => he) (.still h.free fun x hx => .inl hx)
      (fun x hx => hx.elim) (by simp [Stage.targets]) (by simp [Stage.clearing?])
  | tidied file dirty report =>
    have hanswers := Store.remove_answers h.plain m.disk (.file file) h.free hremove
    have hnothing : ((Refresher.op? s.store m.disk.chunk ⟨.tidy file, dirty, report⟩).bind
        fun op => op.putsOn? m.disk s.tree) = none :=
      FileOp.putsOn?_remove m.disk s.tree _
    rw [hnothing]
    refine h.goOn (s.discard_store m.disk file) (s.discard_registry m.disk file)
      (by rw [s.discard_journal m.disk file]; simp) ?_ (fun x hx => hx.elim)
      (by simp [Stage.targets]) (by simp [Stage.clearing?])
    rw [s.discard_tree m.disk file]
    exact ⟨hanswers.free, fun x hx hhas => (hanswers.owned x hx hhas).imp_left False.elim⟩
  | committing c dirty report => exact h.commit m c rfl

/-- Every step leaves the files answered for. -/
theorem Neat.step (h : w.Neat start written) (a : Act) (hremove : w.Removes written a) :
    World.Neat start (written ++ (w.puts? a).toList) (w.step a) := by
  have hquiet (hno : w.puts? a = none) (hstep : World.Neat start written (w.step a)) :
      World.Neat start (written ++ (w.puts? a).toList) (w.step a) := by
    simpa [hno] using hstep
  cases a with
  | call c =>
    refine hquiet rfl ⟨h.plain, h.free, h.listed, h.pending, ?_, h.stage, h.targets, ?_⟩
    · intro i c' stage hi x hx
      rcases w.call_cases c i _ hi with hi | heq
      · exact h.adds i c' stage hi x hx
      · obtain ⟨-, rfl⟩ := Prod.mk.inj heq
        exact hx.elim
    · intro x hx hhas
      cases h.accounted x hx hhas with
      | listed id hlisted => exact .listed id hlisted
      | pending e p he hp hclear => exact .pending e p he hp hclear
      | dropped e p he hp => exact .dropped e p he hp
      | adding _ i c' stage hi hown =>
        have hlen : i < w.adds.length := (List.getElem?_eq_some_iff.mp hi).1
        refine .adding x i c' stage ?_ hown
        exact (List.getElem?_append_left hlen).trans hi
      | refreshing _ hown => exact .refreshing x hown
  | add caller m => exact h.add caller m hremove
  | delete url => exact hquiet rfl (h.delete url)
  | startPass =>
    refine hquiet rfl ?_
    simp only [World.step]
    split
    · rename_i hidle
      -- a pass that is over answers for nothing
      have howns (x : Slot) : ¬ w.refresher.stage.Owns x := by
        revert hidle
        unfold Refresher.isIdle
        cases w.refresher.stage <;> simp [Stage.Owns]
      have hgo : World.Neat start (written ++ [])
          { w with refresher := w.refresher.startPass } :=
        h.goOn rfl rfl (fun event he => he)
          (.still h.free fun x hx => absurd hx (howns x)) (fun x hx => hx.elim)
          (by simp [Refresher.startPass, Stage.targets])
          (by simp [Refresher.startPass, Stage.clearing?])
      simpa using hgo
    · exact h
  | refresh m => exact h.refresh m hremove

theorem puts?_of_names (w : World) (a : Act) (path : String) (h : w.puts? a = some path) :
    ∃ op, w.op? a = some op ∧ path ∈ op.names := by
  obtain ⟨m, -, hm⟩ := Option.bind_eq_some_iff.mp h
  obtain ⟨op, hop, hputs⟩ := Option.bind_eq_some_iff.mp hm
  refine ⟨op, hop, ?_⟩
  unfold FileOp.putsOn? at hputs
  split at hputs
  · cases op with
    | create p => simpa [FileOp.puts?, FileOp.names, eq_comm] using hputs
    | append p more => simpa [FileOp.puts?, FileOp.names, eq_comm] using hputs
    | rename p q =>
      obtain rfl := Option.some.inj hputs
      simp [FileOp.names]
    | _ => cases hputs
  · cases hputs

/-- Files are put at slots of the store only. -/
theorem slot_of_puts? (w : World) (a : Act) (path : String) (h : w.puts? a = some path) :
    ∃ x : Slot, x.path w.system.store = path := by
  obtain ⟨op, hop, hmem⟩ := w.puts?_of_names a path h
  cases a with
  | add caller m =>
    cases hadd : w.adds[caller]? with
    | none => simp [op?, hadd] at hop
    | some q =>
      simp only [op?, hadd] at hop
      obtain ⟨id, -, hnames⟩ := q.2.op?_names w.system.store m.disk.chunk op hop
      obtain ⟨x, -, hx⟩ := hnames path hmem
      exact ⟨x, hx⟩
  | refresh m =>
    obtain ⟨s, adds, ⟨stage, dirty, report⟩⟩ := w
    cases stage with
    | write e id body wr =>
      obtain ⟨x, -, hx⟩ := s.store.writeOp?_names id m.disk.chunk wr op hop path hmem
      exact ⟨x, hx⟩
    | tidy file =>
      obtain rfl := Option.some.inj hop
      exact ⟨.file file, (List.mem_singleton.mp hmem).symm⟩
    | commit c =>
      cases c with
      | promote pairs rep =>
        cases pairs with
        | nil => cases hop
        | cons q rest =>
          obtain ⟨id, stagedId⟩ := q
          simp only [op?, Refresher.op?, Committing.op?] at hop
          split at hop
          · cases hop
          · obtain rfl := Option.some.inj hop
            rcases List.mem_cons.mp hmem with rfl | hmem
            · exact ⟨.file stagedId, rfl⟩
            · exact ⟨.file id, (List.mem_singleton.mp hmem).symm⟩
      | _ => cases hop
    | _ => cases hop
  | _ => cases hop

end World

namespace Run

/-- The files that acts take away, as far as they were written before, can be taken away. -/
def Removes (k : Run) (acts : List Act) : Prop :=
  ∀ before a, before ++ [a] <+: acts → (k.after before).world.Removes (k.written before) a

/-- What is left of all that was written when nothing is under way. -/
structure LeavesNothing (k : Run) (acts : List Act) : Prop where
  /-- A file that is still there is that of a list that was registered at some time, or an entry
  waits for it, or waited for it when it was deleted. -/
  files : ∀ id, (k.after acts).world.system.store.pathFor id ∈ k.written acts →
    (∃ body,
      (k.after acts).world.system.store.Has (k.after acts).world.system.tree (.file id) body) →
    (∃ e, (e ∈ k.world.entries ∨ .added e ∈ (k.after acts).world.system.journal) ∧ e.id = id) ∨
      (∃ e ∈ (k.after acts).world.entries, e.pending = some id) ∨
      ∃ e, .deleted e ∈ (k.after acts).world.system.journal ∧ e.pending = some id
  /-- No temporary file is still there. -/
  temps : ∀ id, (k.after acts).world.system.store.tempPathFor id ∈ k.written acts →
    (k.after acts).world.system.store.Vacant (k.after acts).world.system.tree (.temp id)
  /-- There are no others. -/
  paths : ∀ path ∈ k.written acts, ∃ id, path = (k.after acts).world.system.store.pathFor id ∨
    path = (k.after acts).world.system.store.tempPathFor id

theorem neat_after (k : Run) (start : List Entry) (h : k.world.Neat start []) (acts : List Act)
    (hremoves : k.Removes acts) : (k.after acts).world.Neat start (k.written acts) := by
  induction acts using List.reverseRecOn with
  | nil => exact h
  | append_singleton acts a ih =>
    have hbefore := ih fun before b hb => hremoves before b (hb.trans (List.prefix_append acts [a]))
    rw [after_concat, written_concat]
    exact hbefore.step a (hremoves acts a (List.prefix_refl _))

theorem slot_of_written (k : Run) (acts : List Act) (path : String) (h : path ∈ k.written acts) :
    ∃ x : Slot, x.path k.world.system.store = path := by
  induction acts generalizing k with
  | nil => cases h
  | cons a acts ih =>
    have hstore : (k.step a).world.system.store = k.world.system.store :=
      congrArg Prod.fst (k.world.step_explained a).1
    rcases List.mem_append.mp h with h | h
    · exact k.world.slot_of_puts? a path (Option.mem_toList.mp h)
    · obtain ⟨x, hx⟩ := ih (k.step a) h
      exact ⟨x, hstore ▸ hx⟩

theorem loaded_neat (fetchable : String → Bool) (c : Config) (hc : c.fault? fetchable = none)
    (period : Span) (t : FileTree) (disks : UInt64 → Disk) :
    (loaded c period t disks).world.Neat (loaded c period t disks).world.entries [] := by
  have hvalid := (c.fault?_eq_none_iff fetchable).mp hc
  refine ⟨fun ch hch => (hvalid.extension_plain ch hch).1, by simp, fun e he => ⟨e, .inl he, rfl⟩,
    ?_, by simp [loaded], fun x hx => hx.elim,
    (by simp [loaded, Refresher.fresh, Stage.targets]), by simp⟩
  intro e he p hp
  rw [loaded_entries] at he
  obtain ⟨f, -, rfl⟩ := List.mem_map.mp he
  rw [((System.fresh (Service.store c) period t).seed_same f _).2.2.2] at hp
  cases hp

/-- In every run, whatever fails and whatever is added and deleted meanwhile, no file is left over
when nothing is under way any more, provided that files that were written can be taken away. -/
theorem nothing_left (fetchable : String → Bool) (c : Config) (hc : c.fault? fetchable = none)
    (period : Span) (t : FileTree) (disks : UInt64 → Disk) (acts : List Act)
    (hremoves : (loaded c period t disks).Removes acts)
    (hidle : ((loaded c period t disks).after acts).world.refresher.isIdle = true)
    (hdone : ∀ q ∈ ((loaded c period t disks).after acts).world.adds,
      ∃ outcome, q.2 = .done outcome) :
    (loaded c period t disks).LeavesNothing acts := by
  have hneat := neat_after _ _ (loaded_neat fetchable c hc period t disks) acts hremoves
  have hstore : ((loaded c period t disks).after acts).world.system.store =
      (loaded c period t disks).world.system.store :=
    congrArg Prod.fst ((loaded c period t disks).settings_after acts)
  -- what is under way answers for nothing
  have hpass (x : Slot) :
      ¬ ((loaded c period t disks).after acts).world.refresher.stage.Owns x := by
    revert hidle
    unfold Refresher.isIdle
    cases ((loaded c period t disks).after acts).world.refresher.stage <;> simp [Stage.Owns]
  have hadds (i : Nat) (cand : Candidate) (stage : Adding) (x : Slot)
      (hi : ((loaded c period t disks).after acts).world.adds[i]? = some (cand, stage)) :
      ¬ stage.Owns x := by
    obtain ⟨outcome, rfl⟩ := hdone _ (List.mem_of_getElem? hi)
    exact fun hx => hx
  refine ⟨?files, ?temps, ?paths⟩
  case files =>
    intro id hwritten hhas
    cases hneat.accounted (.file id) hwritten hhas with
    | listed _ hlisted => exact .inl hlisted
    | pending e _ he hp => exact .inr (.inl ⟨e, he, hp⟩)
    | dropped e _ he hp => exact .inr (.inr ⟨e, he, hp⟩)
    | adding _ i cand stage hi hown => exact absurd hown (hadds i cand stage _ hi)
    | refreshing _ hown => exact absurd hown (hpass _)
  case temps =>
    intro id hwritten body hhas
    cases hneat.accounted (.temp id) hwritten ⟨body, hhas⟩ with
    | adding _ i cand stage hi hown => exact hadds i cand stage _ hi hown
    | refreshing _ hown => exact hpass _ hown
  case paths =>
    intro path hpath
    obtain ⟨x, rfl⟩ := (loaded c period t disks).slot_of_written acts path hpath
    rw [hstore]
    cases x with
    | file id => exact ⟨id, .inl rfl⟩
    | temp id => exact ⟨id, .inr rfl⟩

/-- On a disk without faults all that was written can be taken away. -/
theorem removes_of_sound (k : Run) (hplain : k.world.system.store.Plain) (acts : List Act)
    (hsound : ∀ a ∈ acts, ∀ m, a.moment? = some m → m.disk.fault = none) : k.Removes acts := by
  rintro before a hinitial m hm path - hpath ⟨⟨body, modified⟩, hread⟩
  have hfault := hsound a (hinitial.subset (by simp)) m hm
  obtain ⟨x, rfl⟩ := k.slot_of_written before path hpath
  obtain ⟨t', ht'⟩ := Store.remove_ok hplain (x := x) ⟨modified, hread⟩
  exact ⟨t', by simp only [Store.attempt, hfault, ht']⟩

/-- The first list is deleted while its download is under way and added again meanwhile, and the
pass goes on to its end. -/
def readdedOver : List Act :=
  .startPass :: List.replicate 5 (.refresh .calm) ++
    .delete "http://a.example/" :: .call ⟨"ads", "http://a.example/"⟩ ::
      List.replicate 12 (.add 0 .calm) ++ List.replicate 40 (.refresh .calm)

/-- The download that was made for the deleted list is gone. -/
theorem nothing_left_readdedOver :
    Config.pair.fault? (fun _ => true) = none ∧
      (loaded .pair (.ofSeconds 10) .withLists).Removes readdedOver ∧
      ((loaded .pair (.ofSeconds 10) .withLists).after readdedOver).world.refresher.isIdle = true ∧
      (∀ q ∈ ((loaded .pair (.ofSeconds 10) .withLists).after readdedOver).world.adds,
        ∃ outcome, q.2 = .done outcome) ∧
      "lists/1001.txt" ∈ (loaded .pair (.ofSeconds 10) .withLists).written readdedOver ∧
      (loaded .pair (.ofSeconds 10) .withLists).LeavesNothing readdedOver := by
  have hc : Config.pair.fault? (fun _ => true) = none := by decide +kernel
  have hremoves : (loaded .pair (.ofSeconds 10) .withLists).Removes readdedOver := by
    apply removes_of_sound _ (loaded_neat (fun _ => true) .pair hc _ _ _).plain
    intro a ha m hm
    simp only [readdedOver, List.mem_cons, List.mem_append, List.mem_replicate] at ha
    rcases ha with ((rfl | ⟨-, rfl⟩) | rfl | rfl | ⟨-, rfl⟩) | ⟨-, rfl⟩ <;> cases hm <;> rfl
  have hidle : ((loaded .pair (.ofSeconds 10) .withLists).after
      readdedOver).world.refresher.isIdle = true := by
    decide +kernel
  have hdone : ∀ q ∈ ((loaded .pair (.ofSeconds 10) .withLists).after readdedOver).world.adds,
      ∃ outcome, q.2 = .done outcome := by
    have hover : ∀ q ∈ ((loaded .pair (.ofSeconds 10) .withLists).after readdedOver).world.adds,
        q.2.outcome?.isSome = true := by
      decide +kernel
    intro q hq
    obtain ⟨outcome, houtcome⟩ := Option.isSome_iff_exists.mp (hover q hq)
    exact ⟨outcome, Adding.outcome?_eq_some houtcome⟩
  have hwritten : "lists/1001.txt" ∈
      (loaded .pair (.ofSeconds 10) .withLists).written readdedOver := by
    decide +kernel
  exact ⟨hc, hremoves, hidle, hdone, hwritten, nothing_left (fun _ => true) .pair hc
    (.ofSeconds 10) .withLists .readsAll readdedOver hremoves hidle hdone⟩

end Run
end ListKeeper
