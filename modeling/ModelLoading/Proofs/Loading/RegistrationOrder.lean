import ModelLoading.Proofs.Loading.Settling

/-!
# The order of registration

Two loaders are in conflict whichever of them is registered first, so a list of loaders is accepted in
one order exactly if it is accepted in every other (`registerAll_ok_iff`). The acquisition of bytes and
the load of each loader depend on that loader alone, so a world gathered in another order is the same
but for the order of its entries and of its log (`Reordered`), and settles in the same way.
-/

namespace ModelLoading.Loading

variable {ι Model : Type} [DecidableEq ι]

/-! ## Registration -/

/-- Registers loaders one after another, up to the first that is refused. -/
def Registry.registerAll (r : Registry ι) (s : System ι Model) :
    List ι → Except Error (Registry ι × System ι Model)
  | [] => .ok (r, s)
  | i :: is =>
    match r.register s i with
    | .error e => .error e
    | .ok (r, s) => r.registerAll s is

/-- Two loaders can be registered together. -/
def Compatible (m : Resource.Matching) (s : System ι Model) (i j : ι) : Prop :=
  Registry.conflict? m (s.loaders i) (s.loaders j) = none

section Registration

variable {m : Resource.Matching} {r : Registry ι} {s : System ι Model} {is js : List ι} {i j : ι}

omit [DecidableEq ι] in
theorem compatible_iff : Compatible m s i j ↔ (s.loaders i).name ≠ (s.loaders j).name ∧
    (m = .suffix → m.selects (s.loaders j).file (s.loaders i).file = false ∧
      m.selects (s.loaders i).file (s.loaders j).file = false) := by
  unfold Compatible Registry.conflict?
  by_cases same : (s.loaders i).name = (s.loaders j).name
  · simp [same]
  · by_cases suffix : m = .suffix <;> simp [same, suffix]

omit [DecidableEq ι] in
theorem Compatible.symm (h : Compatible m s i j) : Compatible m s j i := by
  rw [compatible_iff] at h ⊢
  exact ⟨h.1.symm, fun suffix => ⟨(h.2 suffix).2, (h.2 suffix).1⟩⟩

omit [DecidableEq ι] in
/-- A loader is accepted if it can be registered with all before it. -/
theorem register_ok_iff : (∃ x, r.register s i = .ok x) ↔
    ∀ j ∈ r.entries, Compatible r.settings.matching s j i := by
  unfold Registry.register
  split
  · rename_i e found
    obtain ⟨j, inside, conflict⟩ := List.exists_of_findSome?_eq_some found
    constructor
    · rintro ⟨x, hx⟩
      cases hx
    · intro free
      have none := free j inside
      unfold Compatible at none
      rw [none] at conflict
      cases conflict
  · rename_i found
    exact ⟨fun _ => List.findSome?_eq_none_iff.mp found, fun _ => ⟨_, rfl⟩⟩

theorem register_ok {x : Registry ι × System ι Model} (h : r.register s i = .ok x) :
    x = ({ r with entries := r.entries ++ [i] }, s.note .caller (.registered i)) := by
  rcases register_cases r s i with ⟨e, refused⟩ | ⟨-, accepted⟩
  · rw [refused] at h
    cases h
  · rw [accepted] at h
    exact (Except.ok.inj h).symm

/-- Loaders are accepted one after another if each can be registered with all before it. -/
theorem registerAll_ok_iff : (∃ x, r.registerAll s is = .ok x) ↔
    (∀ i ∈ r.entries, ∀ j ∈ is, Compatible r.settings.matching s i j) ∧
      is.Pairwise (Compatible r.settings.matching s) := by
  induction is generalizing r s with
  | nil => simp [Registry.registerAll]
  | cons k is ih =>
    simp only [Registry.registerAll, List.pairwise_cons, List.mem_cons, forall_eq_or_imp]
    have first := register_ok_iff (r := r) (s := s) (i := k)
    cases found : r.register s k with
    | error e =>
      simp only [found] at first
      have conflict : ¬∀ j ∈ r.entries, Compatible r.settings.matching s j k := by
        rw [← first]
        rintro ⟨x, hx⟩
        cases hx
      constructor
      · rintro ⟨x, hx⟩
        cases hx
      · rintro ⟨free, -⟩
        exact absurd (fun j hj => (free j hj).1) conflict
    | ok x =>
      have free := first.mp ⟨x, found⟩
      obtain rfl := register_ok found
      have rest := ih (r := { r with entries := r.entries ++ [k] }) (s := s.note .caller (.registered k))
      have same : ∀ i j, Compatible r.settings.matching (s.note .caller (.registered k)) i j ↔
          Compatible r.settings.matching s i j := fun _ _ => Iff.rfl
      dsimp only at rest ⊢
      rw [rest]
      constructor
      · rintro ⟨before, pairwise⟩
        refine ⟨fun i hi => ⟨free i hi, fun j hj => before i (by simp [hi]) j hj⟩, ?_, pairwise⟩
        intro j hj
        exact before k (by simp) j hj
      · rintro ⟨before, own, pairwise⟩
        refine ⟨fun i hi j hj => ?_, pairwise⟩
        rcases List.mem_append.mp hi with old | new
        · exact (before i old).2 j hj
        · obtain rfl := List.mem_singleton.mp new
          exact own j hj

theorem registerAll_ok {x : Registry ι × System ι Model} (h : r.registerAll s is = .ok x) :
    x = ({ r with entries := r.entries ++ is },
      { s with log := s.log ++ is.map fun i => ⟨.caller, .registered i⟩ }) := by
  induction is generalizing r s with
  | nil =>
    obtain rfl := Except.ok.inj h
    simp
  | cons k is ih =>
    unfold Registry.registerAll at h
    cases found : r.register s k with
    | error e =>
      rw [found] at h
      cases h
    | ok y =>
      obtain rfl := register_ok found
      rw [found] at h
      rw [ih h]
      simp [System.note]

/-- Whether loaders are accepted does not depend on their order. -/
theorem registerAll_ok_of_perm (order : is.Perm js) (h : ∃ x, r.registerAll s is = .ok x) :
    ∃ x, r.registerAll s js = .ok x := by
  rw [registerAll_ok_iff] at h ⊢
  obtain ⟨before, pairwise⟩ := h
  refine ⟨fun i hi j hj => before i hi j (order.mem_iff.mpr hj), ?_⟩
  exact (order.pairwise_iff fun {i j} free => free.symm).mp pairwise

end Registration

/-! ## Acquisition -/

section Acquisition

variable (settings : Settings) (source : Resource.Source)

/-- The loader is one that gets bytes when they are acquired for all. -/
def Loader.gains (l : Loader Model) : Bool :=
  l.phase = .pending ∧ l.bytes = none ∧ (contentOf source settings.matching l.file).isOk

variable (s : System ι Model)

theorem fst_acquireOne (i : ι) :
    (Registry.acquireOne settings source s i).1 = (s.loaders i).gains settings source := by
  unfold Registry.acquireOne Loader.gains
  by_cases barred : (s.loaders i).phase ≠ .pending ∨ (s.loaders i).bytes.isSome
  · simp only [if_pos barred]
    rcases barred with other | held
    · simp [other]
    · simp [Option.isSome_iff_ne_none.mp held]
  · have free : (s.loaders i).phase = .pending ∧ (s.loaders i).bytes = none := by
      simpa using barred
    have acquired := s.acquire_cases i source settings.matching
    simp only [free, true_and]
    generalize s.acquire i source settings.matching = x at acquired ⊢
    obtain ⟨result, t⟩ := x
    rcases acquired with ⟨data, found, rfl, -⟩ | ⟨e, found, rfl, -⟩
    · simp [found, Except.isOk, Except.toBool]
    · simp only [found, isAcquisition_of_contentOf found, if_true]
      rfl

/-- The number of loaders that get bytes. -/
theorem fst_acquireEach {is : List ι} (distinct : is.Nodup) :
    (Registry.acquireEach settings source is s).1 =
      is.countP fun i => (s.loaders i).gains settings source := by
  induction is generalizing s with
  | nil => rfl
  | cons i is ih =>
    obtain ⟨new, distinct⟩ := List.nodup_cons.mp distinct
    have rest := ih (Registry.acquireOne settings source s i).2 distinct
    have same : (is.countP fun j => ((Registry.acquireOne settings source s i).2.loaders j).gains
          settings source) = is.countP fun j => (s.loaders j).gains settings source :=
      List.countP_congr fun j hj => by rw [s.loaders_acquireOne_of_not_mem i settings source new hj]
    have one := fst_acquireOne settings source s i
    rw [List.countP_cons, ← same, ← rest, ← one]
    simp only [Registry.acquireEach]
    cases (Registry.acquireOne settings source s i).1 <;> rfl

end Acquisition

/-! ## Gathering -/

/-- Registers loaders in an order and acquires bytes for all of them: the number of those that got
some, and the world with them. -/
def World.gather (w : World ι Model) (source : Resource.Source) (is : List ι) :
    Except Error (Nat × World ι Model) :=
  match w.registry.registerAll w.system is with
  | .error e => .error e
  | .ok (registry, system) =>
    let (n, system) := registry.acquireAll source system
    .ok (n, { w with registry, system })

/-- Two worlds are the same but for the order of the entries and of the log. -/
structure Reordered (u v : World ι Model) : Prop where
  entries : u.registry.entries.Perm v.registry.entries
  scheduler : u.scheduler = v.scheduler
  loaders : u.system.loaders = v.system.loaders
  log : u.system.log.Perm v.system.log

section Gathering

variable {w u v : World ι Model} {source : Resource.Source} {is js : List ι} {n : Nat}

/-- The world after registrations that are all accepted. -/
def World.enrolled (w : World ι Model) (is : List ι) : World ι Model :=
  { w with
    registry := { w.registry with entries := w.registry.entries ++ is }
    system := { w.system with
      log := w.system.log ++ is.map fun i => ⟨.caller, .registered i⟩ } }

theorem after_register (h : ∃ x, w.registry.registerAll w.system is = .ok x) :
    w.after (is.map .register) = w.enrolled is := by
  induction is generalizing w with
  | nil => simp [World.enrolled]
  | cons k is ih =>
    obtain ⟨x, hx⟩ := h
    unfold Registry.registerAll at hx
    cases found : w.registry.register w.system k with
    | error e =>
      rw [found] at hx
      cases hx
    | ok y =>
      have one := register_ok found
      rw [found] at hx
      have performed : w.perform (.register k) = { w with registry := y.1, system := y.2 } := by
        simp only [World.perform, found]
      have rest := ih (w := w.perform (.register k)) ⟨x, by rw [performed]; exact hx⟩
      rw [List.map_cons, World.after_cons, rest, performed, one]
      simp [World.enrolled, System.note]

/-- What is gathered: all loaders were registered, and then bytes were acquired for them. -/
theorem gather_ok_iff : w.gather source is = .ok (n, u) ↔
    (∃ x, w.registry.registerAll w.system is = .ok x) ∧
    n = ((w.enrolled is).registry.acquireAll source (w.enrolled is).system).1 ∧
    u = (w.enrolled is).perform (.acquireAll source) := by
  unfold World.gather
  cases found : w.registry.registerAll w.system is with
  | error e => simp
  | ok x =>
    obtain rfl := registerAll_ok found
    simp only [Except.ok.injEq, Prod.mk.injEq, exists_eq', true_and]
    constructor
    · rintro ⟨rfl, rfl⟩
      exact ⟨rfl, rfl⟩
    · rintro ⟨rfl, rfl⟩
      exact ⟨rfl, rfl⟩

theorem prepared_of_gather (fresh : w.Fresh) (gathered : w.gather source is = .ok (n, u)) :
    Prepared u := by
  obtain ⟨accepted, -, rfl⟩ := gather_ok_iff.mp gathered
  have allowed : w.Allows Preparing (is.map .register) := by
    refine World.allows_iff.mpr fun p a q split => ?_
    have inside : a ∈ is.map Action.register := by simp [split]
    obtain ⟨i, -, rfl⟩ := List.mem_map.mp inside
    trivial
  have before := World.after_induction (fun v a => Prepared.perform) allowed (prepared_of_fresh fresh)
  rw [after_register accepted] at before
  exact before.perform (a := .acquireAll source) trivial

/-- Loaders that are accepted in one order are accepted in every other, as many of them get bytes, and
the worlds are the same but for the order. -/
theorem gather_of_perm (fresh : w.Fresh) (order : is.Perm js)
    (gathered : w.gather source is = .ok (n, u)) :
    ∃ v, w.gather source js = .ok (n, v) ∧ Reordered u v := by
  have prepared := prepared_of_gather fresh gathered
  obtain ⟨accepted, rfl, rfl⟩ := gather_ok_iff.mp gathered
  have accepted' := registerAll_ok_of_perm order accepted
  have entries : ∀ ks, (w.enrolled ks).registry.entries = ks := by
    simp [World.enrolled, fresh.entries]
  have distinct : is.Nodup := (entries is) ▸ prepared.orderly.ledger.distinct
  have log : ∀ {ks}, ks.Nodup → ((w.enrolled ks).perform (.acquireAll source)).system.log =
      (w.system.log ++ ks.map fun i => ⟨.caller, .registered i⟩) ++
        ks.flatMap fun i => acquisitionEntries i w.registry.settings source (w.system.loaders i) := by
    intro ks once
    have acquired := (w.enrolled ks).system.log_acquireEach w.registry.settings source once
    simp only [World.perform, Registry.acquireAll, entries]
    exact acquired
  have count : ∀ {ks}, ks.Nodup →
      ((w.enrolled ks).registry.acquireAll source (w.enrolled ks).system).1 =
        ks.countP fun i => (w.system.loaders i).gains w.registry.settings source := by
    intro ks once
    have acquired := fst_acquireEach w.registry.settings source (w.enrolled ks).system once
    simp only [Registry.acquireAll, entries]
    exact acquired
  have distinct' : js.Nodup := order.nodup_iff.mp distinct
  refine ⟨(w.enrolled js).perform (.acquireAll source), gather_ok_iff.mpr ⟨accepted', ?_, rfl⟩, ?_⟩
  · rw [count distinct, count distinct', order.countP_eq]
  · refine ⟨?_, rfl, ?_, ?_⟩
    · simpa only [World.perform, entries] using order
    · simp only [World.perform, (System.agrees_acquireAll _ _ source).loaders, entries]
      funext i
      simp only [order.mem_iff]
      rfl
    · rw [log distinct, log distinct']
      exact ((order.map _).append_left _).append (order.flatMap_right _)

end Gathering

/-! ## Settling -/

section Settling

variable {u v : World ι Model} {x y : Tick ι × Scheduler × System ι Model}

omit [DecidableEq ι] in
theorem Loader.delivered_alike (l : Loader Model) (t k : TaskId) :
    (l.delivered t).phase = (l.delivered k).phase ∧ (l.delivered t).result = (l.delivered k).result ∧
      (l.delivered t).failure = (l.delivered k).failure := by
  unfold delivered
  cases l.outcome l.bytes <;> exact ⟨rfl, rfl, rfl⟩

/-- Two ends of loading are the same but for tasks and for the order of the log. -/
structure Alike (x y : Tick ι × Scheduler × System ι Model) : Prop where
  answer : x.1 = y.1
  count : x.2.1.dispatched = y.2.1.dispatched
  loaders : ∀ i, (x.2.2.loaders i).phase = (y.2.2.loaders i).phase ∧
    (x.2.2.loaders i).result = (y.2.2.loaders i).result ∧
    (x.2.2.loaders i).failure = (y.2.2.loaders i).failure
  log : x.2.2.records.Perm y.2.2.records

/-- Worlds that are the same but for the order settle in the same way. -/
theorem Reordered.alike (reordered : Reordered u v) (ends : Settlement u x) (ends' : Settlement v y) :
    Alike x y := by
  obtain ⟨entries, scheduler, loaders, log⟩ := reordered
  have holders : u.holders.Perm v.holders := by
    unfold World.holders
    rw [loaders]
    exact entries.filter _
  have lacking : u.lacking = v.lacking := by
    unfold World.lacking
    rw [loaders]
    exact entries.countP_eq _
  have outcome : u.outcomeEntry = v.outcomeEntry := by
    funext i
    simp only [World.outcomeEntry, loaders]
  refine ⟨?_, ?_, fun i => ?_, ?_⟩
  · rw [ends.answer, ends'.answer, lacking]
  · rw [ends.count, ends'.count, scheduler, holders.length_eq]
  · by_cases held : i ∈ u.holders
    · obtain ⟨t, new⟩ := ends.delivered i held
      obtain ⟨k, new'⟩ := ends'.delivered i (holders.mem_iff.mp held)
      rw [new, new', loaders]
      exact Loader.delivered_alike _ t k
    · have held' : i ∉ v.holders := fun inside => held (holders.mem_iff.mpr inside)
      rw [ends.others i held, ends'.others i held', loaders]
      exact ⟨rfl, rfl, rfl⟩
  · refine ends.log.trans (List.Perm.trans ?_ ends'.log.symm)
    rw [lacking, outcome, entries.length_eq]
    refine List.Perm.append_right _ (List.Perm.append (List.Perm.append ?_ ?_) ?_)
    · exact log.filter _
    · exact holders.map _
    · exact holders.map _

end Settling

/-- **The order of registration does not matter.** If loaders are all accepted in one order, they are
in every other, and as many of them get bytes when these are acquired for all. To settle with the
workers finishing between ticks comes to an end in either order; and in whatever way loading settles in
the two, the answer, the number of dispatches and the outcome of every loader are the same, and so is
the log up to the order. -/
theorem registration_order_is_immaterial {w : World ι Model} (fresh : w.Fresh) {is js : List ι}
    (order : is.Perm js) (source : Resource.Source) {n : Nat} {u : World ι Model}
    (gathered : w.gather source is = .ok (n, u)) :
    ∃ v, w.gather source js = .ok (n, v) ∧
      u.SettlesTo (u.scheduler.settle u.registry u.system) ∧
      v.SettlesTo (v.scheduler.settle v.registry v.system) ∧
      ∀ x y, u.SettlesTo x → v.SettlesTo y → Alike x y := by
  obtain ⟨v, gathered', reordered⟩ := gather_of_perm fresh order gathered
  have prepared := prepared_of_gather fresh gathered
  have prepared' := prepared_of_gather fresh gathered'
  refine ⟨v, gathered', settlesTo_settle prepared, settlesTo_settle prepared', fun x y hx hy => ?_⟩
  exact reordered.alike (hx.settlement prepared) (hy.settlement prepared')

/-- The bytes of one of two loaders are found, and the other fails, whichever is registered first. -/
theorem registration_order_is_immaterial_of_pair :
    let source : Resource.Source :=
      { owner := "Models", names := ["two.bytes"], openStream := fun _ => .ok (.ok [2]) }
    let u := (World.pair.enrolled [true, false]).perform (.acquireAll source)
    let v := (World.pair.enrolled [false, true]).perform (.acquireAll source)
    World.pair.gather source [true, false] = .ok (1, u) ∧
      World.pair.gather source [false, true] = .ok (1, v) ∧
      (u.scheduler.settle u.registry u.system).1 = .allLoaded ∧
      Alike (u.scheduler.settle u.registry u.system) (v.scheduler.settle v.registry v.system) := by
  intro source u v
  have accepted : ∃ x, World.pair.registry.registerAll World.pair.system [true, false] = .ok x :=
    ⟨_, rfl⟩
  have gathered : World.pair.gather source [true, false] = .ok (1, u) :=
    gather_ok_iff.mpr ⟨accepted, by decide +kernel, rfl⟩
  have order : [true, false].Perm [false, true] := List.Perm.swap _ _ _
  obtain ⟨v', gathered', ends, ends', alike⟩ :=
    registration_order_is_immaterial World.fresh_pair order source gathered
  obtain rfl : v' = v := (gather_ok_iff.mp gathered').2.2
  exact ⟨gathered, gathered', by decide +kernel, alike _ _ ends ends'⟩

end ModelLoading.Loading
