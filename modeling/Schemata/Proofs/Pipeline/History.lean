import Mathlib.Data.List.Induction
import Schemata.Proofs.Pipeline.Engine

/-!
# What an engine keeps from earlier jobs

An engine is given one job after the other. `Held` says what it has in place after some of them, in
terms of the registry it started from: the parser and the producer that were last asked for and
found, and the options it always had. The main statement, `translate_after`, is that the outcome of
a job depends on nothing else.
-/

namespace Schemata

namespace Registry

/-- The plugin that is asked for, if one is and it is found. -/
def granted? (registry : Registry) (role : Role) (reference? : Option (Reference role)) :
    Option (Plugin role) :=
  reference?.bind fun reference => (registry.found role reference).toOption

/-- Whether the plugin that is asked for is found, if one is. -/
def meets (registry : Registry) (role : Role) (reference? : Option (Reference role)) : Bool :=
  reference?.all fun reference => (registry.found role reference).isOk

section Choices

variable {registry after : Registry} {role : Role} {current : Instance (Plugin role)}
  {reference? : Option (Reference role)} {answer : Answer role}

theorem choose_eq_ok {made : Instance (Plugin role)}
    (hanswer : registry.choose role current reference? = answer) (h : answer.result = .ok made) :
    registry.meets role reference? = true ∧
      made.plugin = (registry.granted? role reference?).getD current.plugin := by
  subst hanswer
  cases reference? with
  | none =>
      cases h
      exact ⟨rfl, rfl⟩
  | some reference =>
      have hfound : registry.found role reference = .ok made.plugin := by
        simp only [choose] at h
        simp [found, h, Except.map]
      simp [meets, granted?, hfound, Except.isOk, Except.toBool, Except.toOption]

theorem choose_eq_error {reason : PipelineError}
    (hanswer : registry.choose role current reference? = answer)
    (h : answer.result = .error reason) :
    registry.meets role reference? = false ∧ registry.granted? role reference? = none := by
  subst hanswer
  cases reference? with
  | none => cases h
  | some reference =>
      have hfound : registry.found role reference = .error reason := by
        simp only [choose] at h
        simp [found, h, Except.map]
      simp [meets, granted?, hfound, Except.isOk, Except.toBool, Except.toOption]

theorem Filled.granted_eq (h : Filled registry after) :
    after.granted? role reference? = registry.granted? role reference? := by
  unfold granted?
  simp only [h.found_eq]

theorem Filled.meets_eq (h : Filled registry after) :
    after.meets role reference? = registry.meets role reference? := by
  unfold meets
  simp only [h.found_eq]

end Choices

end Registry

/-- An input for an engine, and the files as they are when it is given. -/
structure Job where
  files : Files
  input : Input

namespace Job

/-- What is asked for with a text. An input that cannot be read or has no text asks for nothing. -/
def arguments? (job : Job) : Option Arguments :=
  match (job.input.normalize job.files).2 with
  | .ok { payload := some _, arguments } => some arguments
  | _ => none

/-- What a job asks for in a role, if it comes to that: a producer is not looked for when the parser
is asked for and not found. -/
def asked? (job : Job) (registry : Registry) : (role : Role) → Option (Reference role)
  | .parser => job.arguments?.bind (·.parser)
  | .producer =>
    (job.arguments?.filter fun arguments => registry.meets .parser arguments.parser).bind (·.producer)

/-- The plugin that a job puts in place, if it does. -/
def places? (job : Job) (registry : Registry) (role : Role) : Option (Plugin role) :=
  registry.granted? role (job.asked? registry role)

section Views

variable {job : Job} {registry after : Registry} {journal : Journal} {payload : String}
  {arguments : Arguments}

theorem arguments_eq_none (h : ∀ payload arguments,
    (job.input.normalize job.files).2 ≠ .ok { payload := some payload, arguments }) :
    job.arguments? = none := by
  unfold arguments?
  split
  · exact absurd ‹_› (h _ _)
  · rfl

theorem arguments_eq_some
    (hread : job.input.normalize job.files = (journal, .ok { payload := some payload, arguments })) :
    job.arguments? = some arguments := by
  simp only [arguments?, hread]

theorem nothing_asked (h : job.arguments? = none) (role : Role) :
    job.asked? registry role = none := by
  cases role <;> simp [asked?, h]

theorem parser_asked (h : job.arguments? = some arguments) :
    job.asked? registry .parser = arguments.parser := by
  simp [asked?, h]

theorem producer_asked (h : job.arguments? = some arguments)
    (hmeets : registry.meets .parser arguments.parser = true) :
    job.asked? registry .producer = arguments.producer := by
  simp only [asked?, h, Option.filter_some, hmeets, if_true]
  rfl

theorem producer_not_asked (h : job.arguments? = some arguments)
    (hmeets : registry.meets .parser arguments.parser = false) :
    job.asked? registry .producer = none := by
  simp [asked?, h, hmeets]

theorem places_filled (h : registry.Filled after) (role : Role) :
    job.places? after role = job.places? registry role := by
  have hasked : job.asked? after role = job.asked? registry role := by
    cases role with
    | parser => rfl
    | producer => simp only [asked?, h.meets_eq]
  rw [places?, places?, hasked, h.granted_eq]

end Views

end Job

namespace Engine

/-- The plugin that an engine has in a role. -/
def plugin (engine : Engine) : (role : Role) → Plugin role
  | .parser => engine.parser.plugin
  | .producer => engine.producer.plugin

section Steps

variable {engine : Engine} {registry : Registry} {job : Job} {turn : Turn Outcome}

/-- A job leaves the plugin in place that it asks for and that is found, and else the one that was
there. -/
theorem Exit.plugin_eq (h : Exit engine registry job.files job.input turn) (role : Role) :
    turn.engine.plugin role = (job.places? registry role).getD (engine.plugin role) := by
  unfold Job.places?
  cases h with
  | unread hread | empty hread =>
      rw [Job.nothing_asked (Job.arguments_eq_none (by simp [hread]))]
      rfl
  | noParser hread hparsers hparser =>
      have hasks := Job.arguments_eq_some hread
      obtain ⟨hmeets, hgranted⟩ := Registry.choose_eq_error hparsers hparser
      cases role with
      | parser =>
          rw [Job.parser_asked hasks, hgranted]
          rfl
      | producer =>
          rw [Job.producer_not_asked hasks hmeets]
          rfl
  | noProducer hread hparsers hparser hproducers hproducer =>
      have hfilled := Registry.filled_choose hparsers
      have hasks := Job.arguments_eq_some hread
      obtain ⟨hmeets, hgranted⟩ := Registry.choose_eq_ok hparsers hparser
      cases role with
      | parser =>
          rw [Job.parser_asked hasks]
          exact hgranted
      | producer =>
          have hrefused := (Registry.choose_eq_error hproducers hproducer).2
          rw [hfilled.granted_eq] at hrefused
          rw [Job.producer_asked hasks hmeets, hrefused]
          rfl
  | performed hread hparsers hparser hproducers hproducer =>
      have hfilled := Registry.filled_choose hparsers
      have hasks := Job.arguments_eq_some hread
      obtain ⟨hmeets, hgranted⟩ := Registry.choose_eq_ok hparsers hparser
      cases role with
      | parser =>
          rw [Job.parser_asked hasks]
          exact hgranted
      | producer =>
          have hplugin := (Registry.choose_eq_ok hproducers hproducer).2
          rw [hfilled.granted_eq] at hplugin
          rw [Job.producer_asked hasks hmeets]
          exact hplugin

/-- A job with a text whose plugins are all found runs the plugins that it leaves in place. -/
theorem Exit.performed_of_meets (h : Exit engine registry job.files job.input turn)
    {payload : String} {arguments : Arguments}
    (hread : (job.input.normalize job.files).2 = .ok { payload := some payload, arguments })
    (hparser : registry.meets .parser arguments.parser = true)
    (hproducer : registry.meets .producer arguments.producer = true) :
    let performance := perform (turn.engine.plugin .parser) (turn.engine.plugin .producer)
      (engine.options.merge arguments.options) payload
    turn.result = performance.result ∧ ∃ search, turn.journal = search ++ performance.journal := by
  cases h with
  | unread hunread => simp [hunread] at hread
  | empty hempty => simp [hempty] at hread
  | noParser hpayload hparsers hrefused =>
      obtain ⟨rfl, rfl⟩ : _ = payload ∧ _ = arguments := by simpa [hpayload] using hread
      rw [(Registry.choose_eq_error hparsers hrefused).1] at hparser
      cases hparser
  | noProducer hpayload hparsers _ hproducers hrefused =>
      obtain ⟨rfl, rfl⟩ : _ = payload ∧ _ = arguments := by simpa [hpayload] using hread
      have hfilled := Registry.filled_choose hparsers
      have hmissing := (Registry.choose_eq_error hproducers hrefused).1
      rw [hfilled.meets_eq, hproducer] at hmissing
      cases hmissing
  | performed hpayload _ _ _ _ hperform =>
      obtain ⟨rfl, rfl⟩ : _ = payload ∧ _ = arguments := by simpa [hpayload] using hread
      subst hperform
      exact ⟨rfl, _, rfl⟩

end Steps

/-- The engine and the registry after some jobs, done one after the other. -/
def after (engine : Engine) (registry : Registry) (jobs : List Job) : Engine × Registry :=
  jobs.foldl (fun place job =>
    let turn := place.1.translate place.2 job.files job.input
    (turn.engine, turn.registry)) (engine, registry)

theorem after_concat (engine : Engine) (registry : Registry) (jobs : List Job) (job : Job) :
    engine.after registry (jobs ++ [job]) =
      let place := engine.after registry jobs
      let turn := place.1.translate place.2 job.files job.input
      (turn.engine, turn.registry) := by
  simp [after]

/-- The last plugin of a role that jobs put in place, or the one that an engine had before them. -/
def pluginAfter (engine : Engine) (registry : Registry) (jobs : List Job) (role : Role) :
    Plugin role :=
  (jobs.filterMap (·.places? registry role)).getLast?.getD (engine.plugin role)

theorem plugin_after_concat (engine : Engine) (registry : Registry) (jobs : List Job) (job : Job)
    (role : Role) : engine.pluginAfter registry (jobs ++ [job]) role =
      (job.places? registry role).getD (engine.pluginAfter registry jobs role) := by
  cases hplaces : job.places? registry role <;> simp [pluginAfter, hplaces]

/-- What an engine and a registry are after some jobs, in terms of those at the start. -/
structure Held (engine : Engine) (registry : Registry) (jobs : List Job)
    (place : Engine × Registry) : Prop where
  options : place.1.options = engine.options
  filled : registry.Filled place.2
  plugin : ∀ role, place.1.plugin role = engine.pluginAfter registry jobs role

section Runs

variable {engine : Engine} {registry : Registry} {jobs : List Job} {job : Job}
  {place : Engine × Registry} {turn : Turn Outcome}

theorem Held.step (h : Held engine registry jobs place)
    (hexit : Exit place.1 place.2 job.files job.input turn) :
    Held engine registry (jobs ++ [job]) (turn.engine, turn.registry) where
  options := hexit.options_eq.trans h.options
  filled := h.filled.trans hexit.filled
  plugin role := by
    rw [hexit.plugin_eq, Job.places_filled h.filled, h.plugin, plugin_after_concat]

theorem held_after (engine : Engine) (registry : Registry) (jobs : List Job) :
    Held engine registry jobs (engine.after registry jobs) := by
  induction jobs using List.reverseRecOn with
  | nil => exact ⟨rfl, .refl registry, fun role => rfl⟩
  | append_singleton jobs job ih =>
      rw [after_concat]
      exact ih.step (translate_exit ..)

end Runs

/-- The outcome of a job whose plugins are found is what its text comes to under the options of the
engine with those of the job over them, by the plugins that were last put in place, by this job or an
earlier one. Which plugins are found is the same after any jobs. -/
theorem translate_after {engine : Engine} {registry : Registry} {earlier : List Job} {job : Job}
    {payload : String} {arguments : Arguments}
    (hread : (job.input.normalize job.files).2 = .ok { payload := some payload, arguments })
    (hparser : registry.meets .parser arguments.parser = true)
    (hproducer : registry.meets .producer arguments.producer = true) :
    let place := engine.after registry earlier
    let turn := place.1.translate place.2 job.files job.input
    let plugin := engine.pluginAfter registry (earlier ++ [job])
    let options := engine.options.merge arguments.options
    let performance := perform (plugin .parser) (plugin .producer) options payload
    (∀ role reference, place.2.found role reference = registry.found role reference) ∧
      (∀ key, options.get? key = (arguments.options.get? key).or (engine.options.get? key)) ∧
      turn.result = performance.result ∧
      ∃ search, turn.journal = search ++ performance.journal := by
  intro place turn plugin options performance
  have hheld : Held engine registry earlier place := held_after engine registry earlier
  have hexit : Exit place.1 place.2 job.files job.input turn := translate_exit ..
  have hplugin : ∀ role, turn.engine.plugin role = plugin role := (hheld.step hexit).plugin
  have hperformed := hexit.performed_of_meets hread (hheld.filled.meets_eq.trans hparser)
    (hheld.filled.meets_eq.trans hproducer)
  rw [hplugin, hplugin, hheld.options] at hperformed
  exact ⟨hheld.filled.found_eq, engine.options.get?_merge arguments.options, hperformed⟩

/-- A parser that passes on the value of an option in place of the text. -/
def toneParser : Parser where
  parse _ context := { result := .ok (.text ((context.options.get? "tone").getD "")) }

/-- The parser of an earlier job is still there, and the options of that job are not. -/
theorem translate_after_tone :
    let engine : Engine :=
      { parser := { identity := 0, plugin := identityParser }
        producer := { identity := 1, plugin := identityProducer }
        options := Options.empty.set "tone" "low" }
    let first : Job :=
      { files := fun _ => .error ""
        input := .arguments
          { data := some "a"
            parser := some (.direct { identity := 2, plugin := toneParser })
            options := Options.empty.set "tone" "high" } }
    let arguments : Arguments := { producer := some (.named "identity") }
    let second : Job :=
      { files := first.files, input := .arguments { arguments with data := some "b" } }
    let place := engine.after .builtin [first]
    (second.input.normalize second.files).2 = .ok { payload := some "b", arguments } ∧
      Registry.builtin.meets .parser arguments.parser = true ∧
      Registry.builtin.meets .producer arguments.producer = true ∧
      (place.1.translate place.2 second.files second.input).result =
        .ok (.produced (.text "low")) := by
  intro engine first arguments second place
  have hread : (second.input.normalize second.files).2 =
    .ok { payload := some "b", arguments } := rfl
  have hparser : Registry.builtin.meets .parser arguments.parser = true := rfl
  have hproducer : Registry.builtin.meets .producer arguments.producer = true := by rfl
  obtain ⟨-, -, hresult, -⟩ := @translate_after engine .builtin [first] second "b" arguments hread
    hparser hproducer
  exact ⟨hread, hparser, hproducer, hresult⟩

end Engine

end Schemata
