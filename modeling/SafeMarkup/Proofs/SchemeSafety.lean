/-
# URL schemes in sanitized trees

A property that is checked for its URL scheme comes out of sanitizing with accepted schemes only,
unless the same property is given the prefix and the prefix does harm.  The scheme is looked for in
the raw text and the prefix is put before it afterwards, so what is emitted is an accepted text or
the prefix with an accepted text behind it.  `Url.IsHarmless` says for which prefixes the second is
accepted as well.

`sanitize_schemes_allowed` says what follows for whole trees: a harmless prefix lets nothing through
at any depth, and under a harmful one every element that stays and may carry the property shows a
refused scheme for some raw value.

So for a policy that keeps the prefix and the check apart, or has a harmless prefix, no refused
scheme comes out anywhere.  The standard prefix does harm as a rule, since it runs into the scheme
of the URL behind it.  Under the standard policy no property has both, so this is of no consequence
there; `not_forall_exposed_allowed` is about a policy in which one has.
-/
import SafeMarkup.Proofs.Conformance
import SafeMarkup.Proofs.SchemePrefix

namespace SafeMarkup

/-- The properties of an element. -/
def Node.entries : Node → List (Value × Value)
  | element _ (.map entries) _ _ _ => entries
  | _ => []

/-- An element with one property, and nothing in it. -/
def Node.bearing (tag name : String) (value : Value) : Node :=
  element (.str tag) (.map [(.str name, value)]) (.tuple []) .null .null

/-- The text is the value of the property, or an item of its value. -/
def Node.Shows (node : Node) (name text : String) : Prop :=
  ∃ held, (Value.str name, held) ∈ node.entries ∧ text ∈ held.texts

/-- The property shows the text on an element at some depth of the tree. -/
def Node.Exposes (top : Node) (name text : String) : Prop :=
  ∃ path node, occurrence? [.node top] path = some node ∧ node.Shows name text

namespace Policy

variable {policy : Policy} {enclosing : List String} {name text : String} {allowed : NameSet}

/-- What the policy does to the texts of the property leaves accepted URL schemes accepted. -/
def KeepsSchemes (policy : Policy) (name : String) (allowed : NameSet) : Prop :=
  policy.isClobbered name = true → Url.IsHarmless policy.clobberPrefix allowed.names

theorem Conforms.shows {node : Node} (h : policy.Conforms policy.Emits enclosing node)
    (shows : node.Shows name text) :
    ∃ source, policy.acceptsUrl name source = true ∧ text = policy.guardName name source := by
  obtain ⟨held, hentry, ht⟩ := shows
  cases h with
  | root _ => cases hentry
  | text => cases hentry
  | element _ _ _ carried _ =>
    obtain ⟨property, key, -, raw, emitted⟩ := carried _ hentry
    obtain rfl := Value.str.inj key
    exact mem_texts_of_sanitizeValue emitted ht

theorem acceptsUrl_of_checked (checked : policy.protocolsFor name = some allowed) :
    policy.acceptsUrl name text = Url.hasAllowedScheme text allowed.names := by
  simp only [acceptsUrl, checked]

/-- An accepted text is emitted with an accepted scheme, unless the prefix does harm. -/
theorem hasAllowedScheme_guardName (keeps : policy.KeepsSchemes name allowed)
    (accepted : Url.hasAllowedScheme text allowed.names = true) :
    Url.hasAllowedScheme (policy.guardName name text) allowed.names = true := by
  unfold guardName
  split
  · next needs =>
    have clobbered : policy.isClobbered name = true := (Bool.and_eq_true_iff.1 needs).1
    exact Url.hasAllowedScheme_append (keeps clobbered) accepted
  · exact accepted

theorem nodes_clean_single {around : List Value} {tag : String} {raw value : Value}
    (verdict : policy.judge around (.str tag) = .kept tag)
    (permitted : policy.allowsAttribute tag name = true)
    (emitted : policy.sanitizeValue name raw = some value) :
    (policy.clean around (.bearing tag name raw)).nodes = [.bearing tag name value] := by
  have carried : (policy.cleanEntries tag [(.str name, raw)]).1 = [(.str name, value)] := by
    simp only [cleanEntries, permitted, if_true, emitted]
  have entries : (policy.cleanProperties tag (.map [(.str name, raw)])).1 = [(.str name, value)] :=
    carried
  rw [Node.bearing, nodes_clean_kept verdict, entries]
  rfl

/-- What a sanitized tree shows was emitted from an accepted text. -/
theorem exposes_sanitize {value : Value} (exposed : (policy.sanitize value).Exposes name text) :
    ∃ source, policy.acceptsUrl name source = true ∧ text = policy.guardName name source := by
  obtain ⟨path, node, occurs, shows⟩ := exposed
  obtain ⟨inner, conforms⟩ := (sanitize_conforms_emits policy value).occurrence occurs
  exact conforms.shows shows

/-- A prefix that does harm makes an element show a refused scheme. -/
theorem exists_shown_refused (checked : policy.protocolsFor name = some allowed)
    (harms : ¬ policy.KeepsSchemes name allowed) {around : List Value} {tag : String}
    (verdict : policy.judge around (.str tag) = .kept tag)
    (permitted : policy.allowsAttribute tag name = true) :
    ∃ raw shown, Url.hasAllowedScheme raw allowed.names = true ∧
      (policy.clean around (.bearing tag name (.str raw))).nodes =
        [.bearing tag name (.str shown)] ∧
      Url.hasAllowedScheme shown allowed.names = false := by
  obtain ⟨clobbered, harmful⟩ := Classical.not_imp.1 harms
  obtain ⟨raw, accepted, begins, refused⟩ := Url.exists_refused_append harmful
  refine ⟨raw, policy.clobberPrefix ++ raw, accepted, ?_, refused⟩
  refine nodes_clean_single verdict permitted ?_
  have guarded : policy.guardName name raw = policy.clobberPrefix ++ raw := by
    simp [guardName, clobbered, begins]
  rw [sanitizeValue_of_isPrimitive rfl, sanitizePrimitive, acceptsUrl_of_checked checked, accepted,
    if_pos rfl, guarded]

/-- In a property that is checked for its URL scheme, every text of a sanitized tree is an accepted
one, with the prefix before it if the property gets one.  If that prefix does no harm its scheme is
accepted as well; if it does, every element that stays and may carry the property comes out with a
refused scheme for some accepted text. -/
theorem sanitize_schemes_allowed (policy : Policy) (name : String) (allowed : NameSet)
    (checked : policy.protocolsFor name = some allowed) :
    (∀ (value : Value) (text : String), (policy.sanitize value).Exposes name text →
      ∃ source, Url.hasAllowedScheme source allowed.names = true ∧
        text = policy.guardName name source) ∧
    (policy.KeepsSchemes name allowed →
      ∀ (value : Value) (text : String), (policy.sanitize value).Exposes name text →
        Url.hasAllowedScheme text allowed.names = true) ∧
    (¬ policy.KeepsSchemes name allowed →
      ∀ (around : List Value) (tag : String), policy.judge around (.str tag) = .kept tag →
        policy.allowsAttribute tag name = true →
        ∃ raw shown, Url.hasAllowedScheme raw allowed.names = true ∧
          (policy.clean around (.bearing tag name (.str raw))).nodes =
            [.bearing tag name (.str shown)] ∧
          Url.hasAllowedScheme shown allowed.names = false) := by
  have emitted : ∀ (value : Value) (text : String), (policy.sanitize value).Exposes name text →
      ∃ source, Url.hasAllowedScheme source allowed.names = true ∧
        text = policy.guardName name source := by
    intro value text exposed
    obtain ⟨source, accepted, rfl⟩ := exposes_sanitize exposed
    exact ⟨source, acceptsUrl_of_checked checked ▸ accepted, rfl⟩
  refine ⟨emitted, ?_, ?_⟩
  · intro keeps value text exposed
    obtain ⟨source, accepted, rfl⟩ := emitted value text exposed
    exact hasAllowedScheme_guardName keeps accepted
  · intro harms around tag verdict permitted
    exact exists_shown_refused checked harms verdict permitted

/-- Links to secure pages, with the prefix before every link. -/
def prefixedLinks : Policy where
  tagNames := .ofList ["a"]
  attributes := .ofEntries [("a", .ofList ["href"])]
  protocols := .ofEntries [("href", .ofList ["https"])]
  clobber := .ofList ["href"]

/-- The same with a prefix that makes a fragment of every link. -/
def fragmentLinks : Policy :=
  { prefixedLinks with clobberPrefix := "#user-content-" }

/-- The fragment does no harm.  The other prefix runs into the scheme of the link. -/
theorem sanitize_schemes_allowed_links :
    (fragmentLinks.KeepsSchemes "href" (.ofList ["https"]) ∧
      ∀ (value : Value) (text : String), (fragmentLinks.sanitize value).Exposes "href" text →
        Url.hasAllowedScheme text ["https"] = true) ∧
    (¬ prefixedLinks.KeepsSchemes "href" (.ofList ["https"]) ∧
      ∃ raw shown, Url.hasAllowedScheme raw ["https"] = true ∧
        (prefixedLinks.clean [] (.bearing "a" "href" (.str raw))).nodes =
          [.bearing "a" "href" (.str shown)] ∧
        Url.hasAllowedScheme shown ["https"] = false) := by
  have keeps : fragmentLinks.KeepsSchemes "href" (.ofList ["https"]) :=
    fun _ => .inr (.inl ⟨⟨'#', by decide, rfl⟩, by decide⟩)
  have harms : ¬ prefixedLinks.KeepsSchemes "href" (.ofList ["https"]) := by
    intro harmless
    have accepted : Url.hasAllowedScheme "https://example.com" ["https"] = true := by decide
    have kept := Url.hasAllowedScheme_append (harmless (by decide)) accepted
    exact absurd kept (by decide)
  refine ⟨⟨keeps, ?_⟩, harms, ?_⟩
  · exact (sanitize_schemes_allowed fragmentLinks "href" (.ofList ["https"]) (by decide)).2.1 keeps
  · exact (sanitize_schemes_allowed prefixedLinks "href" (.ofList ["https"]) (by decide)).2.2 harms
      [] "a" (by decide) (by decide)

/-- A scheme is accepted in a link and refused in what the link becomes. -/
theorem not_forall_exposed_allowed :
    ¬ ∀ (policy : Policy) (name : String) (allowed : NameSet) (value : Value) (text : String),
      policy.protocolsFor name = some allowed → (policy.sanitize value).Exposes name text →
      Url.hasAllowedScheme text allowed.names = true := by
  intro every
  let link : Value := .node (.bearing "a" "href" (.str "https://example.com"))
  have exposed :
      (prefixedLinks.sanitize link).Exposes "href" "user-content-https://example.com" :=
    ⟨[0], _, rfl, .str "user-content-https://example.com", .head _, .head _⟩
  have allowed := every prefixedLinks "href" (.ofList ["https"]) _ _ (by decide) exposed
  exact absurd allowed (by decide)

end Policy

end SafeMarkup
