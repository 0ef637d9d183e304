import SemanticHighlight.Proofs.Highlight.Scenes

/-!
# One request at a time

If nothing else is under way, strands may take their turns in the order of the texts, and each load may
go on as soon as it is waited for. Then a request comes to what `highlight` comes to and leaves the same
session (`exists_run_highlight`): highlighting one document after the other is one of the runs of a
scene.
-/

namespace SemanticHighlight

open Relation

variable {World Grammar Query α β γ : Type}

namespace Strand

variable {State Key News Error : Type} {known : Key → News → Prop} {s s' : State}
  {x x' : Strand State Key News Error α} {strays : List (Stray State Key News Error)}

theorem Advance.bind (h : Advance known s x s' x' strays) (f : α → Strand State Key News Error β) :
    Advance known s (x.bind f) s' (x'.bind f) strays := by
  cases h with
  | act => exact .act
  | await hnews => exact .await hnews
  | child hchild => exact .child hchild
  | join hvalues => exact .join hvalues
  | fall hfail => exact .fall hfail

end Strand

namespace Scene

variable {provider : Provider World Grammar Query} {scene scene' : Scene World Grammar Query}
  {x x' x'' : Errand World Grammar Query α} {y : Attempt World Grammar Query α}
  {f : α → Errand World Grammar Query β} {g : α → Attempt World Grammar Query β}

/-! ## One strand and the loads -/

/-- The strand takes a turn, or a load goes on. -/
inductive Goes (provider : Provider World Grammar Query) :
    Scene World Grammar Query × Errand World Grammar Query α →
      Scene World Grammar Query × Errand World Grammar Query α → Prop where
  | turn {scene : Scene World Grammar Query} {x x' : Errand World Grammar Query α}
      {s' : Session World Grammar Query} {strays : List (Stray _ _ _ _)}
      (hadvance : x.Advance scene.Known scene.session s' x' strays) :
      Goes provider (scene, x) ({ scene with session := s', strays := scene.strays ++ strays }, x')
  | read {scene : Scene World Grammar Query} {x : Errand World Grammar Query α} {load : Load}
      (hrunning : load ∈ scene.session.registry.running)
      (hunread : ∀ outcome, (load, outcome) ∉ scene.read) :
      Goes provider (scene, x) (scene.reading provider load, x)
  | take {scene : Scene World Grammar Query} {x : Errand World Grammar Query α} {load : Load}
      {outcome : Except LoadError (Binding Grammar Query)}
      (hrunning : load ∈ scene.session.registry.running) (hread : (load, outcome) ∈ scene.read) :
      Goes provider (scene, x) (scene.taking load outcome, x)

abbrev Path (provider : Provider World Grammar Query) :
    Scene World Grammar Query × Errand World Grammar Query α →
      Scene World Grammar Query × Errand World Grammar Query α → Prop := ReflTransGen (Goes provider)

theorem Path.bind (h : Path provider (scene, x) (scene', x')) (f : α → Errand World Grammar Query β) :
    Path provider (scene, x.bind f) (scene', x'.bind f) := by
  apply h.lift (fun c : Scene World Grammar Query × Errand World Grammar Query α => (c.1, c.2.bind f))
  intro a b hgoes
  cases hgoes with
  | turn hadvance => exact .turn (hadvance.bind f)
  | read hrunning hunread => exact .read hrunning hunread
  | take hrunning hread => exact .take hrunning hread

theorem Path.child {child child' : Errand World Grammar Query β}
    (h : Path provider (scene, child) (scene', child')) {count : Nat}
    (children : Fin count → Errand World Grammar Query β) (i : Fin count)
    (next : (Fin count → β) → Errand World Grammar Query α) :
    Path provider (scene, .together count (Function.update children i child) next)
      (scene', .together count (Function.update children i child') next) := by
  apply h.lift (fun c : Scene World Grammar Query × Errand World Grammar Query β =>
    (c.1, Strand.together count (Function.update children i c.2) next))
  intro a b hgoes
  cases hgoes with
  | @turn scene x x' s' strays hadvance =>
    rw [← Function.update_self i x children] at hadvance
    simpa using Goes.turn (.child hadvance)
  | read hrunning hunread => exact .read hrunning hunread
  | take hrunning hread => exact .take hrunning hread

/-- What one request does is a run of the scene that it is part of. -/
theorem Path.run {rest' : Errand World Grammar Query (List Token)} {i : Nat}
    {requests : List (Request World Grammar Query)} {request : Request World Grammar Query}
    (h : Path provider (scene, request.rest) (scene', rest')) (hi : requests[i]? = some request) :
    ReflTransGen (Move provider) { scene with requests }
      { scene' with requests := requests.set i { request with rest := rest' } } := by
  obtain ⟨hlt, hget⟩ := List.getElem?_eq_some_iff.mp hi
  have hset : requests.set i { request with rest := request.rest } = requests := by
    rw [← hget, List.set_getElem_self]
  have hlift := h.lift (fun c : Scene World Grammar Query × Errand World Grammar Query (List Token) =>
    { c.1 with requests := requests.set i { request with rest := c.2 } }) (p := Move provider) ?_
  · rw [← hset]
    simpa using hlift
  · intro a b hgoes
    cases hgoes with
    | @turn scene x x' s' strays hadvance =>
      have hmove : Move provider
          { scene with requests := requests.set i { request with rest := x } } _ :=
        .request (List.getElem?_set_self hlt) hadvance
      simpa using hmove
    | read hrunning hunread => exact .read hrunning hunread
    | take hrunning hread => exact .take hrunning hread

/-! ## Attempts -/

/-- Nothing is waited for, and no load is about to be taken in. -/
structure Idle (scene : Scene World Grammar Query) : Prop where
  pending : scene.session.registry.pending = []
  read : scene.read = []

/-- The strand can go the way of the attempt: it comes to the same and leaves the same session. -/
def Performs (provider : Provider World Grammar Query) (x : Errand World Grammar Query α)
    (y : Attempt World Grammar Query α) : Prop :=
  ∀ scene : Scene World Grammar Query, scene.Idle → ∃ scene', scene'.Idle ∧
    scene'.session = (y.outcome scene.session).2 ∧
      Path provider (scene, x) (scene', .ofResult (y.outcome scene.session).1)

theorem performs_pure (a : α) :
    Performs provider (pure a) (pure a : Attempt World Grammar Query α) :=
  fun scene hidle => ⟨scene, hidle, rfl, .refl⟩

theorem performs_bind (hx : Performs provider x y) (hf : ∀ a, Performs provider (f a) (g a)) :
    Performs provider (x >>= f) (y >>= g) := by
  intro scene hidle
  obtain ⟨scene₁, hidle₁, hsession₁, hpath₁⟩ := hx scene hidle
  have hbind := hpath₁.bind f
  rw [Attempt.outcome_bind]
  generalize y.outcome scene.session = first at hsession₁ hbind
  obtain ⟨result, s₁⟩ := first
  obtain rfl : scene₁.session = s₁ := hsession₁
  cases result with
  | error e => exact ⟨scene₁, hidle₁, rfl, hbind⟩
  | ok a =>
    obtain ⟨scene₂, hidle₂, hsession₂, hpath₂⟩ := hf a scene₁ hidle₁
    exact ⟨scene₂, hidle₂, hsession₂, hbind.trans hpath₂⟩

theorem path_sync_bind (provider : Provider World Grammar Query) (scene : Scene World Grammar Query)
    (y : Attempt World Grammar Query α) (f : α → Errand World Grammar Query β) :
    Path provider (scene, Strand.sync y >>= f)
      ({ scene with session := (y.outcome scene.session).2 },
        (Strand.ofResult (y.outcome scene.session).1).bind f) := by
  have hturn : Goes provider (scene, Strand.sync y >>= f) _ := .turn .act
  rw [List.append_nil] at hturn
  exact .single hturn

theorem performs_sync (h : ∀ s, (y.outcome s).2.registry = s.registry) :
    Performs provider (.sync y) y := by
  intro scene hidle
  refine ⟨{ scene with session := (y.outcome scene.session).2 }, ⟨?_, hidle.read⟩, rfl, ?_⟩
  · rw [h]
    exact hidle.pending
  · have hturn : Goes provider (scene, Strand.sync y) _ := .turn .act
    rw [List.append_nil] at hturn
    exact .single hturn

/-! ## Loads -/

def asked (scene : Scene World Grammar Query) (lang : Text) : Scene World Grammar Query :=
  { scene with session := { scene.session with registry := (scene.session.registry.request lang).2 } }

theorem pending_finish_begun {r : Registry (Binding Grammar Query)} (hidle : r.pending = [])
    {lang : Text} {config : LanguageConfig} (hconfig : r.config? lang = some config)
    (outcome : Except LoadError (Binding Grammar Query)) :
    ((r.begun lang config).finish (r.nextLoad config) outcome).1.pending = [] := by
  have hcurrent : (r.nextLoad config).generation = (r.begun lang config).generation := rfl
  have hreleased : ((r.begun lang config).released (r.nextLoad config)).pending = [] := by
    simp [Registry.released, Registry.begun, Registry.ended, Registry.nextLoad, hidle,
      findConfig?_lang hconfig]
  cases outcome with
  | error e =>
    rw [Registry.finish_error hcurrent]
    exact hreleased
  | ok binding =>
    rw [Registry.finish_ok hcurrent]
    exact hreleased

/-- A load that was just started reads its files and is taken in. -/
theorem exists_path_load (provider : Provider World Grammar Query) (hidle : scene.Idle) {lang : Text}
    {config : LanguageConfig} (hconfig : scene.session.registry.config? lang = some config) :
    let load := scene.session.registry.nextLoad config
    let s := { scene.session with registry := scene.session.registry.begun lang config }
    ∃ scene', scene'.Idle ∧ scene'.session = ((Session.runLoad provider load).run s).2 ∧
      Path provider ({ scene with session := s }, Strand.newsOf load)
        (scene', .pure ((Session.runLoad provider load).run s).1) := by
  intro load s
  let started : Scene World Grammar Query := { scene with session := s }
  let outcome := provider.loaded s.world config
  have hrunning : load ∈ s.registry.running := List.mem_append_right _ (List.mem_singleton_self load)
  have hread : (started.reading provider load).read = [(load, outcome)] :=
    congrArg ((load, outcome) :: ·) hidle.read
  have hunread : ∀ o, (load, o) ∉ started.read := by
    intro o hmem
    rw [show started.read = [] from hidle.read] at hmem
    cases hmem
  have hmem : (load, outcome) ∈ (started.reading provider load).read := by
    rw [hread]
    exact List.mem_singleton_self _
  have hknown : ((started.reading provider load).taking load outcome).Known load outcome :=
    List.mem_cons_self
  refine ⟨(started.reading provider load).taking load outcome, ⟨?_, ?_⟩, ?_, ?_⟩
  · exact pending_finish_begun hidle.pending hconfig outcome
  · rw [read_taking, hread]
    simp
  · have hlog : ∀ entries, s.log ++ Registry.beginEntry load :: entries =
        s.log ++ [Registry.beginEntry load] ++ entries := by simp
    show Session.mk _ _ _ = Session.mk _ _ _
    rw [Session.mk.injEq]
    exact ⟨rfl, rfl, congrArg (· ++ _) (hlog _)⟩
  · have hturn : Goes provider (_, Strand.newsOf load) _ := .turn (.await hknown)
    rw [List.append_nil] at hturn
    exact .tail (.tail (.single (.read hrunning hunread)) (.take hrunning hmem)) hturn

/-- A request for a language comes to what `resolve` comes to. -/
theorem exists_path_settle (provider : Provider World Grammar Query) (hidle : scene.Idle)
    (lang : Text) :
    ∃ scene', scene'.Idle ∧
      scene'.session = ((Session.resolve provider lang).run scene.session).2 ∧
      Path provider
        (scene.asked lang, Provider.settle lang (scene.session.registry.request lang).1)
        (scene', .pure ((Session.resolve provider lang).run scene.session).1) := by
  have hrequested := scene.session.registry.requested_request lang
  unfold asked
  rw [Session.run_resolve]
  generalize scene.session.registry.request lang = answered at hrequested
  cases hrequested with
  | cached hcached => exact ⟨scene, hidle, rfl, .refl⟩
  | joined hcached hpending =>
    rw [hidle.pending] at hpending
    cases hpending
  | unconfigured hcached hpending hconfig => exact ⟨scene, hidle, rfl, .refl⟩
  | begun hcached hpending hconfig =>
    obtain ⟨scene', hidle', hsession, hpath⟩ := exists_path_load provider hidle hconfig
    exact ⟨scene', hidle', hsession, hpath.bind _⟩

/-! ## Regions -/

theorem registry_regionIn (lang : Text) (content : Capture)
    (resolved : Except ResolveError (Binding Grammar Query)) (s : Session World Grammar Query) :
    ((Provider.regionIn lang content resolved).outcome s).2.registry = s.registry := by
  rcases resolved with (_ | _ | _) | binding <;> rfl

theorem performs_regionErrand (mayNest : Bool) (found : Match) :
    Performs provider (provider.regionErrand mayNest found) (provider.regionOf mayNest found) := by
  intro scene hidle
  have hpath : ∀ result s, (provider.askRegion mayNest found).outcome scene.session = (result, s) →
      Path provider (scene, provider.regionErrand mayNest found)
        ({ scene with session := s }, (Strand.ofResult result).bind Provider.settleRegion) := by
    intro result s houtcome
    have hsync := path_sync_bind provider scene (provider.askRegion mayNest found)
      Provider.settleRegion
    rw [houtcome] at hsync
    exact hsync
  unfold Provider.askRegion at hpath
  unfold Provider.regionOf
  rw [Attempt.outcome_bind, Attempt.outcome_get] at hpath ⊢
  dsimp only at hpath ⊢
  cases hfound : found.injection? scene.session.registry.isConfigured with
  | none =>
    rw [hfound] at hpath
    exact ⟨scene, hidle, rfl, hpath _ _ rfl⟩
  | some marked =>
    obtain ⟨lang, content⟩ := marked
    rw [hfound] at hpath
    dsimp only at hpath ⊢
    by_cases hconfigured : scene.session.registry.isConfigured lang = true
    · simp only [hconfigured, Bool.not_true, Bool.false_eq_true, if_false] at hpath ⊢
      cases mayNest with
      | false => exact ⟨scene, hidle, rfl, hpath _ _ rfl⟩
      | true =>
        obtain ⟨scene₁, hidle₁, hsession₁, hsettled⟩ := exists_path_settle provider hidle lang
        have hregion : Performs provider _ _ := performs_sync
          (registry_regionIn lang content ((Session.resolve provider lang).run scene.session).1)
        obtain ⟨scene₂, hidle₂, hsession₂, hdone⟩ := hregion scene₁ hidle₁
        rw [hsession₁] at hsession₂ hdone
        exact ⟨scene₂, hidle₂, hsession₂, ((hpath _ _ rfl).trans (hsettled.bind _)).trans hdone⟩
    · simp only [hconfigured, Bool.not_false, if_true] at hpath ⊢
      let s := { scene.session with
        log := scene.session.log ++ [Provider.unconfiguredEntry lang content] }
      exact ⟨{ scene with session := s }, ⟨hidle.pending, hidle.read⟩, rfl, hpath _ _ rfl⟩

/-! ## Texts -/

/-- The strands of a list of which the first ones have come to their results. -/
def halfway (f : γ → Errand World Grammar Query β) (xs : List γ) (done : List β) :
    Fin xs.length → Errand World Grammar Query β :=
  fun i => if h : i < done.length then .pure done[i] else f xs[i]

theorem halfway_concat {f : γ → Errand World Grammar Query β} {xs : List γ} {done : List β}
    (h : done.length < xs.length) (b : β) :
    Function.update (halfway f xs done) ⟨done.length, h⟩ (.pure b) = halfway f xs (done ++ [b]) := by
  funext i
  by_cases hi : i = ⟨done.length, h⟩
  · subst hi
    simp [halfway]
  · have hne : (i : Nat) ≠ done.length := fun heq => hi (Fin.ext heq)
    rw [Function.update_of_ne hi]
    unfold halfway
    by_cases hlt : (i : Nat) < done.length
    · rw [dif_pos hlt, dif_pos (by simp; omega)]
      simp [List.getElem_append_left hlt]
    · rw [dif_neg hlt, dif_neg (by simp; omega)]

theorem path_join (provider : Provider World Grammar Query) (scene : Scene World Grammar Query)
    {f : γ → Errand World Grammar Query β} {xs : List γ} {done : List β}
    (h : done.length = xs.length) :
    Path provider
      (scene, .together xs.length (halfway f xs done) fun values => .pure (List.ofFn values))
      (scene, .pure done) := by
  have hvalues : ∀ i, halfway f xs done i = .pure (done.get ⟨i, i.isLt.trans_eq h.symm⟩) :=
    fun i => dif_pos (i.isLt.trans_eq h.symm)
  have hturn : Goes provider (scene, Strand.together xs.length (halfway f xs done)
      fun values => Strand.pure (List.ofFn values)) _ := .turn (.join hvalues)
  have hall : List.ofFn (fun i : Fin xs.length => done.get ⟨i, i.isLt.trans_eq h.symm⟩) = done := by
    apply List.ext_getElem
    · simp [h]
    · simp
  rw [List.append_nil, hall] at hturn
  exact .single hturn

/-- What the next strand does happens beside the others. -/
theorem path_halfway {f : γ → Errand World Grammar Query β} {xs : List γ} {done : List β}
    (h : done.length < xs.length) {scene' : Scene World Grammar Query}
    {y : Errand World Grammar Query β}
    (hpath : Path provider (scene, f xs[done.length]) (scene', y)) :
    Path provider
      (scene, .together xs.length (halfway f xs done) fun values => .pure (List.ofFn values))
      (scene', .together xs.length (Function.update (halfway f xs done) ⟨done.length, h⟩ y)
        fun values => .pure (List.ofFn values)) := by
  have hchild := hpath.child (halfway f xs done) ⟨done.length, h⟩ fun values =>
    (Strand.pure (List.ofFn values) : Errand World Grammar Query (List β))
  have hsame : Function.update (halfway f xs done) ⟨done.length, h⟩ (f xs[done.length]) =
      halfway f xs done := by
    apply Function.update_eq_self_iff.mpr
    simp [halfway]
  rwa [hsame] at hchild

/-- The strands go on one by one; the first error leaves those that have not begun. -/
theorem exists_path_halfway {f : γ → Errand World Grammar Query β}
    {g : γ → Attempt World Grammar Query β} (h : ∀ x, Performs provider (f x) (g x)) {xs : List γ}
    (rest : List γ) (done : List β) (hrest : xs.drop done.length = rest)
    (hle : done.length ≤ xs.length) (hidle : scene.Idle) :
    ∃ scene', scene'.Idle ∧ scene'.session = ((rest.mapM g).outcome scene.session).2 ∧
      Path provider
        (scene, .together xs.length (halfway f xs done) fun values => .pure (List.ofFn values))
        (scene', .ofResult (((rest.mapM g).outcome scene.session).1.map (done ++ ·))) := by
  induction rest generalizing done scene with
  | nil =>
    have hlength : done.length = xs.length :=
      Nat.le_antisymm hle (List.drop_eq_nil_iff.mp hrest)
    refine ⟨scene, hidle, rfl, ?_⟩
    show Path provider _ (scene, .pure (done ++ []))
    rw [List.append_nil]
    exact path_join provider scene hlength
  | cons x rest ih =>
    have hlt : done.length < xs.length := by
      by_contra hge
      rw [List.drop_eq_nil_of_le (Nat.le_of_not_lt hge)] at hrest
      cases hrest
    have hdrop := List.drop_eq_getElem_cons hlt
    rw [hrest, List.cons.injEq] at hdrop
    obtain ⟨rfl, hrest'⟩ := hdrop
    obtain ⟨scene₁, hidle₁, hsession₁, hpath₁⟩ := h xs[done.length] scene hidle
    have hchild := path_halfway hlt hpath₁
    rw [List.mapM_cons, Attempt.outcome_bind]
    generalize (g xs[done.length]).outcome scene.session = first at hsession₁ hchild
    obtain ⟨result, s₁⟩ := first
    obtain rfl : scene₁.session = s₁ := hsession₁
    cases result with
    | error e =>
      have hfall : Goes provider (scene₁, Strand.together xs.length
          (Function.update (halfway f xs done) ⟨done.length, hlt⟩ (.fail e))
          fun values => Strand.pure (List.ofFn values)) _ :=
        .turn (.fall (i := ⟨done.length, hlt⟩) (Function.update_self ..))
      refine ⟨_, ?_, ?_, hchild.tail hfall⟩
      · exact ⟨hidle₁.pending, hidle₁.read⟩
      · rfl
    | ok b =>
      obtain ⟨scene₂, hidle₂, hsession₂, hpath₂⟩ := ih (done ++ [b]) (by simp [hrest'])
        (by simp; omega) hidle₁
      rw [← halfway_concat hlt] at hpath₂
      dsimp only
      rw [Attempt.outcome_bind]
      generalize (rest.mapM g).outcome scene₁.session = second at hsession₂ hpath₂
      obtain ⟨_ | bs, s₂⟩ := second
      · exact ⟨scene₂, hidle₂, hsession₂, hchild.trans hpath₂⟩
      · have hall : done ++ [b] ++ bs = done ++ b :: bs := List.append_cons .. |>.symm
        refine ⟨scene₂, hidle₂, hsession₂, hchild.trans ?_⟩
        show Path provider _ (scene₂, .pure (done ++ b :: bs))
        rw [← hall]
        exact hpath₂

theorem performs_forAll {f : γ → Errand World Grammar Query β}
    {g : γ → Attempt World Grammar Query β} (h : ∀ x, Performs provider (f x) (g x)) (xs : List γ) :
    Performs provider (.forAll xs f) (xs.mapM g) := by
  intro scene hidle
  obtain ⟨scene', hidle', hsession, hpath⟩ := exists_path_halfway h xs [] rfl (Nat.zero_le _) hidle
  refine ⟨scene', hidle', hsession, ?_⟩
  have hnone : halfway f xs [] = fun i => f xs[i] := by
    funext i
    simp [halfway]
  rw [hnone] at hpath
  cases hresult : ((xs.mapM g).outcome scene.session).1 with
  | error e =>
    rw [hresult] at hpath
    exact hpath
  | ok bs =>
    rw [hresult] at hpath
    exact hpath

variable {deeper : Option (Binding Grammar Query → Text → Attempt World Grammar Query (List Token))}
  {deeperErrand : Option (Binding Grammar Query → Text → Errand World Grammar Query (List Token))}

inductive DeeperPerforms (provider : Provider World Grammar Query) :
    Option (Binding Grammar Query → Text → Errand World Grammar Query (List Token)) →
    Option (Binding Grammar Query → Text → Attempt World Grammar Query (List Token)) → Prop
  | none : DeeperPerforms provider none none
  | some {errand : Binding Grammar Query → Text → Errand World Grammar Query (List Token)}
      {highlight : Binding Grammar Query → Text → Attempt World Grammar Query (List Token)}
      (h : ∀ binding t, Performs provider (errand binding t) (highlight binding t)) :
      DeeperPerforms provider (some errand) (some highlight)

theorem performs_injectionErrand (h : DeeperPerforms provider deeperErrand deeper) (found : Match) :
    Performs provider (provider.injectionErrand deeperErrand found)
      (provider.injectionOf deeper found) := by
  unfold Provider.injectionErrand Provider.injectionOf
  cases h with
  | none =>
    apply performs_bind (performs_regionErrand _ found)
    rintro (_ | region) <;> exact performs_pure none
  | some hdeeper =>
    apply performs_bind (performs_regionErrand _ found)
    rintro (_ | region)
    · exact performs_pure none
    · exact performs_bind (hdeeper _ _) fun tokens => performs_pure _

theorem performs_injectionsErrand (h : DeeperPerforms provider deeperErrand deeper) (query : Query)
    (t : Text) : Performs provider (provider.injectionsErrand deeperErrand query t)
      (provider.injectionsOf deeper query t) := by
  apply performs_bind (performs_sync fun s => rfl)
  intro found
  exact performs_bind (performs_forAll (performs_injectionErrand h) found) fun _ => performs_pure _

theorem registry_ownTokens (binding : Binding Grammar Query) (t : Text)
    (s : Session World Grammar Query) :
    ((provider.ownTokens binding t).outcome s).2.registry = s.registry := by
  unfold Provider.ownTokens
  cases provider.engine.search binding.highlights t <;> rfl

theorem performs_tokensErrandWith (h : DeeperPerforms provider deeperErrand deeper)
    (binding : Binding Grammar Query) (t : Text) :
    Performs provider (provider.tokensErrandWith deeperErrand binding t)
      (provider.tokensWith deeper binding t) := by
  unfold Provider.tokensErrandWith Provider.tokensWith
  split_ifs
  · exact performs_pure []
  · apply performs_bind (performs_sync (registry_ownTokens binding t))
    intro tokens
    cases binding.injections with
    | none => exact performs_pure tokens
    | some query =>
      exact performs_bind (performs_injectionsErrand h query t) fun _ => performs_pure _

theorem performs_tokensErrand (budget : Nat) (binding : Binding Grammar Query) (t : Text) :
    Performs provider (provider.tokensErrand budget binding t) (provider.tokens budget binding t) := by
  induction budget generalizing binding t with
  | zero => exact performs_tokensErrandWith .none binding t
  | succ budget ih => exact performs_tokensErrandWith (.some ih) binding t

theorem performs_documentErrand (lang t : Text) (binding : Binding Grammar Query) :
    Performs provider (provider.documentErrand lang t (.ok binding)) (do
      let tokens := Token.sort (← provider.tokens provider.maxDepth binding t)
      Attempt.report [Provider.highlightedEntry lang tokens]
      return tokens) := by
  refine performs_bind (performs_tokensErrand _ binding t) fun tokens => ?_
  exact performs_bind (performs_sync fun s => rfl) fun _ => performs_pure _

theorem performs_errand (provider : Provider World Grammar Query) (lang t : Text) :
    Performs provider (provider.errand lang t) (provider.highlight lang t) := by
  intro scene hidle
  have hpath : ∀ result s, (Provider.askDocument lang).outcome scene.session = (result, s) →
      Path provider (scene, provider.errand lang t)
        ({ scene with session := s }, (Strand.ofResult result).bind fun answer => do
          provider.documentErrand lang t (← Provider.settle lang answer)) := by
    intro result s houtcome
    have hsync := path_sync_bind provider scene (Provider.askDocument lang) fun answer => do
      provider.documentErrand lang t (← Provider.settle lang answer)
    rw [houtcome] at hsync
    exact hsync
  unfold Provider.askDocument at hpath
  unfold Provider.highlight
  rw [Attempt.outcome_bind, Attempt.outcome_get] at hpath ⊢
  dsimp only at hpath ⊢
  by_cases hconfigured : scene.session.registry.isConfigured lang = true
  · simp only [hconfigured, Bool.not_true, Bool.false_eq_true, if_false] at hpath ⊢
    obtain ⟨scene₁, hidle₁, hsession₁, hsettled⟩ := exists_path_settle provider hidle lang
    have hdocument := (hpath _ _ rfl).trans (hsettled.bind _)
    rw [Attempt.outcome_bind, Attempt.outcome_lift]
    dsimp only
    rw [← hsession₁]
    cases hresolved : ((Session.resolve provider lang).run scene.session).1 with
    | error e =>
      rw [hresolved] at hdocument
      exact ⟨scene₁, hidle₁, rfl, hdocument⟩
    | ok binding =>
      rw [hresolved] at hdocument
      obtain ⟨scene₂, hidle₂, hsession₂, hdone⟩ := performs_documentErrand lang t binding scene₁ hidle₁
      exact ⟨scene₂, hidle₂, hsession₂, hdocument.trans hdone⟩
  · simp only [hconfigured, Bool.not_false, if_true] at hpath ⊢
    exact ⟨scene, hidle, rfl, hpath _ _ rfl⟩

/-- If nothing else is under way, a new request may come to what `highlight` comes to, and leaves the
same session. -/
theorem exists_run_highlight (provider : Provider World Grammar Query) (hidle : scene.Idle)
    (lang t : Text) :
    ∃ scene', ReflTransGen (Move provider) (scene.asking provider lang t) scene' ∧ scene'.Idle ∧
      scene'.session = ((provider.highlight lang t).outcome scene.session).2 ∧
      scene'.requests = scene.requests ++
        [⟨lang, t, .ofResult ((provider.highlight lang t).outcome scene.session).1⟩] := by
  obtain ⟨scene', hidle', hsession, hpath⟩ := performs_errand provider lang t scene hidle
  let request : Request World Grammar Query := ⟨lang, t, provider.errand lang t⟩
  have hlast : (scene.requests ++ [request])[scene.requests.length]? = some request := by simp
  have hpath' : Path provider (scene, request.rest) (scene', _) := hpath
  refine ⟨_, hpath'.run hlast, ⟨hidle'.pending, hidle'.read⟩, hsession, ?_⟩
  simp [request]

end Scene

end SemanticHighlight
