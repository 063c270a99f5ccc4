import CaManager.Library.Json
import CaManager.Library.Substitution

/-!
# Rendering certificate templates

A template stores its name fields as JSON texts with placeholders. Rendering replaces the
placeholder of one variable after another in each field. The result should be the template with
all placeholders filled at once, whatever the values are and however the variables are listed.
-/

namespace CaManager

open Library

/-- A stored template. A column for JSON is empty, or what reading it gives, where `none` stands
for a text that is not JSON. -/
structure CertificateTemplate where
  id : ℕ
  name : String
  templateType : String
  keyType : Option String
  validityDays : Option ℕ
  digest : Option String
  dnTemplate : Option (Option Json)
  extensionsTemplate : Option (Option Json)
  deriving DecidableEq

inductive TemplateError
  | valueError (message : String)
  | jsonDecodeError
  | attributeError
  deriving Repr, DecidableEq

structure RenderedTemplate where
  name : String
  templateType : String
  keyType : Option String
  validityDays : Option ℕ
  digest : Option String
  dn : Members
  extensions : Json
  deriving DecidableEq

/-- The variables of a call: a dictionary from names to values, in the order it lists them. -/
structure Variables where
  entries : List (String × String)
  distinct : (entries.map Prod.fst).Nodup

section Rendering

def loadColumn : Option (Option Json) → Except TemplateError Json
  | none => .ok (.object [])
  | some none => .error .jsonDecodeError
  | some (some v) => .ok v

def itemsOf : Json → Except TemplateError Members
  | .object members => .ok members
  | _ => .error .attributeError

def renderText (vars : Variables) (value : String) : String :=
  vars.entries.foldl (fun value e => replaceText ("\x7b" ++ e.1 ++ "\x7d") e.2 value) value

def renderField (vars : Variables) : Json → Json
  | .text value => .text (renderText vars value)
  | value => value

def renderTemplate (templates : List CertificateTemplate) (templateId : ℕ)
    (vars : Variables) : Except TemplateError RenderedTemplate :=
  match templates.find? (·.id = templateId) with
  | none => .error (.valueError "Template not found")
  | some template => do
    let dnTemplate ← loadColumn template.dnTemplate
    let extensions ← loadColumn template.extensionsTemplate
    let fields ← itemsOf dnTemplate
    return {
      name := template.name
      templateType := template.templateType
      keyType := template.keyType
      validityDays := template.validityDays
      digest := template.digest
      dn := fields.map fun field => (field.1, renderField vars field.2)
      extensions := extensions }

end Rendering

section Substitution

variable {vars : Variables}

/-- The field with its placeholders filled at once; a value that is no text stays as it is. -/
def filledField (vars : Variables) : Json → Json
  | .text value => .text (String.ofList (simultaneous vars.entries value.toList))
  | value => value

theorem renderText_eq (vars : Variables) (value : String) :
    renderText vars value = String.ofList (successive vars.entries value.toList) := by
  have hplaceholder : ∀ name : String, ("\x7b" ++ name ++ "\x7d").toList = placeholder name := by
    intro name
    simp [placeholder]
  unfold renderText successive
  generalize vars.entries = entries
  induction entries generalizing value with
  | nil => simp
  | cons e entries ih =>
    rw [List.foldl_cons, List.foldl_cons, ih, replaceText, String.toList_ofList, hplaceholder]

/-- Whichever of the variables a map holds, and in whatever order it lists them, each field is the
template's with its placeholders filled at once. -/
def RendersAtOnce (templates : List CertificateTemplate) (templateId : ℕ) (fields : Members)
    (vars : Variables) : Prop :=
  ∀ chosen listed : Variables, chosen.entries.Subperm vars.entries →
    listed.entries.Perm chosen.entries →
    ∃ rendered, renderTemplate templates templateId listed = .ok rendered ∧
      rendered.dn = fields.map fun field => (field.1, filledField chosen field.2)

variable {templates : List CertificateTemplate} {templateId : ℕ} {template : CertificateTemplate}
  {fields : Members} {extensions : Json}

theorem renderTemplate_eq (hfind : templates.find? (·.id = templateId) = some template)
    (hdn : loadColumn template.dnTemplate = .ok (.object fields))
    (hext : loadColumn template.extensionsTemplate = .ok extensions) (vars : Variables) :
    ∃ rendered, renderTemplate templates templateId vars = .ok rendered ∧
      rendered.dn = fields.map fun field => (field.1, renderField vars field.2) := by
  refine ⟨{ name := template.name, templateType := template.templateType
            keyType := template.keyType, validityDays := template.validityDays
            digest := template.digest
            dn := fields.map fun field => (field.1, renderField vars field.2)
            extensions := extensions }, ?_, rfl⟩
  rw [renderTemplate, hfind]
  dsimp only
  rw [hdn, hext]
  rfl

theorem renderField_eq_filledField_iff {field : Json} :
    renderField vars field = filledField vars field ↔ ∀ text, field = .text text →
      successive vars.entries text.toList = simultaneous vars.entries text.toList := by
  cases field with
  | text value => simp [renderField, filledField, renderText_eq, String.ofList_inj]
  | _ => simp [renderField, filledField]

theorem filledField_perm {listed chosen : Variables} (h : listed.entries.Perm chosen.entries)
    (field : Json) : filledField listed field = filledField chosen field := by
  cases field with
  | text value => rw [filledField, filledField, simultaneous_perm h chosen.distinct]
  | _ => rfl

theorem rendersAtOnce_of_undisturbed
    (hfind : templates.find? (·.id = templateId) = some template)
    (hdn : loadColumn template.dnTemplate = .ok (.object fields))
    (hext : loadColumn template.extensionsTemplate = .ok extensions)
    (h : ∀ field ∈ fields, ∀ text, field.2 = .text text →
      Undisturbed vars.entries text.toList) :
    RendersAtOnce templates templateId fields vars := by
  intro chosen listed hchosen hlisted
  obtain ⟨rendered, hrendered, hdn'⟩ := renderTemplate_eq hfind hdn hext listed
  refine ⟨rendered, hrendered, ?_⟩
  rw [hdn']
  apply List.map_congr_left
  intro field hfield
  have hsub : listed.entries.Subperm vars.entries := hlisted.subperm.trans hchosen
  have hsame : renderField listed field.2 = filledField listed field.2 := by
    rw [renderField_eq_filledField_iff]
    intro text htext
    exact (successive_eq_simultaneous_iff vars.distinct).mpr (h field hfield text htext) _ hsub
  rw [hsame, filledField_perm hlisted]

/-- A template is filled at once, for all maps of the variables, exactly where no field that is a
text comes to have a placeholder that its template does not have. -/
theorem rendersAtOnce_iff (hfind : templates.find? (·.id = templateId) = some template)
    (hdn : loadColumn template.dnTemplate = .ok (.object fields))
    (hext : loadColumn template.extensionsTemplate = .ok extensions) :
    RendersAtOnce templates templateId fields vars ↔
      ∀ field ∈ fields, ∀ text, field.2 = .text text → Undisturbed vars.entries text.toList := by
  constructor
  · intro hall field hfield text htext
    rw [← successive_eq_simultaneous_iff vars.distinct]
    intro chosen hchosen
    have hdistinct := nodup_of_subperm hchosen vars.distinct
    obtain ⟨rendered, hrendered, hfilled⟩ :=
      hall ⟨chosen, hdistinct⟩ ⟨chosen, hdistinct⟩ hchosen (.refl _)
    obtain ⟨rendered', hrendered', hdn'⟩ := renderTemplate_eq hfind hdn hext ⟨chosen, hdistinct⟩
    rw [hrendered, Except.ok.injEq] at hrendered'
    rw [← hrendered', hfilled, List.map_inj_left] at hdn'
    have hsame := (Prod.mk.inj (hdn' field hfield)).2
    exact renderField_eq_filledField_iff.mp hsame.symm text htext
  · exact rendersAtOnce_of_undisturbed hfind hdn hext

section Examples

/-- A template for servers, as it is shipped but for the fields that are empty. -/
def serverTemplate (cn : String) : CertificateTemplate where
  id := 1
  name := "Web Server (TLS/SSL)"
  templateType := "web_server"
  keyType := some "RSA-2048"
  validityDays := some 397
  digest := some "sha256"
  dnTemplate := some (some (.object [("CN", .text cn), ("OU", .text "IT")]))
  extensionsTemplate := none

theorem rendersAtOnce_hostname :
    RendersAtOnce [serverTemplate "{hostname}"] 1 [("CN", .text "{hostname}"), ("OU", .text "IT")]
        ⟨[("hostname", "www.example.com")], by decide⟩ ↔
      ∀ field ∈ [("CN", Json.text "{hostname}"), ("OU", .text "IT")], ∀ text,
        field.2 = .text text → Undisturbed [("hostname", "www.example.com")] text.toList :=
  @rendersAtOnce_iff _ _ _ (serverTemplate "{hostname}") _ _ rfl rfl rfl

/-- The value of one variable is the placeholder of another, which is replaced in turn if it comes
later, but not if it comes first. -/
theorem renderTemplate_expands_value :
    (renderTemplate [serverTemplate "{a}"] 1 ⟨[("a", "{b}"), ("b", "x")], by decide⟩).map
        RenderedTemplate.dn = .ok [("CN", .text "x"), ("OU", .text "IT")] ∧
      (renderTemplate [serverTemplate "{a}"] 1 ⟨[("b", "x"), ("a", "{b}")], by decide⟩).map
        RenderedTemplate.dn = .ok [("CN", .text "{b}"), ("OU", .text "IT")] ∧
      ¬ RendersAtOnce [serverTemplate "{a}"] 1 [("CN", .text "{a}"), ("OU", .text "IT")]
        ⟨[("a", "{b}"), ("b", "x")], by decide⟩ := by
  have hforward : (renderTemplate [serverTemplate "{a}"] 1
      ⟨[("a", "{b}"), ("b", "x")], by decide⟩).map RenderedTemplate.dn =
        .ok [("CN", .text "x"), ("OU", .text "IT")] := by decide +kernel
  refine ⟨hforward, by decide +kernel, ?_⟩
  intro hall
  obtain ⟨rendered, hrendered, hfilled⟩ := hall _ _ (.refl _) (.refl _)
  rw [hrendered, Except.map, Except.ok.injEq, hfilled] at hforward
  revert hforward
  decide +kernel

end Examples

end Substitution

end CaManager
