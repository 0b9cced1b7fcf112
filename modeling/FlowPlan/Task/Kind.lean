import FlowPlan.Task

namespace FlowPlan

/-!
The built-in kinds of task and their definitions.

Every built-in input is required.  The literal-only inputs are those a user
types or picks and that no task produces: the start address, a visibility and
a credential.
-/

inductive TaskKind where
  | launchBrowser
  | pageToHtml
  | extractTextFromElement
  | fillInput
  | clickElement
  | waitForElement
  | navigateUrl
  | scrollToElement
  | deliverViaWebhook
  | extractDataWithAi
  | readPropertyFromJson
  | addPropertyToJson
  deriving DecidableEq, Repr

namespace TaskKind

def name : TaskKind -> String
  | .launchBrowser => "LAUNCH_BROWSER"
  | .pageToHtml => "PAGE_TO_HTML"
  | .extractTextFromElement => "EXTRACT_TEXT_FROM_ELEMENT"
  | .fillInput => "FILL_INPUT"
  | .clickElement => "CLICK_ELEMENT"
  | .waitForElement => "WAIT_FOR_ELEMENT"
  | .navigateUrl => "NAVIGATE_URL"
  | .scrollToElement => "SCROLL_TO_ELEMENT"
  | .deliverViaWebhook => "DELIVER_VIA_WEBHOOK"
  | .extractDataWithAi => "EXTRACT_DATA_WITH_AI"
  | .readPropertyFromJson => "READ_PROPERTY_FROM_JSON"
  | .addPropertyToJson => "ADD_PROPERTY_TO_JSON"

def all : List TaskKind :=
  [.launchBrowser, .pageToHtml, .extractTextFromElement, .fillInput, .clickElement,
    .waitForElement, .navigateUrl, .scrollToElement, .deliverViaWebhook,
    .extractDataWithAi, .readPropertyFromJson, .addPropertyToJson]

def ofName? (text : String) : Option TaskKind :=
  all.find? (fun kind => kind.name == text)

theorem mem_all (kind : TaskKind) : kind ∈ all := by
  cases kind <;> decide

theorem ofName?_name (kind : TaskKind) : ofName? kind.name = some kind := by
  cases kind <;> decide

/-- What is said of a text that names no built-in kind. -/
def unknownMessage (text : String) : String := "unknown task type: " ++ text

/-! ## Definitions -/

def webPage : String := "Web page"

def webPageIn : InputPort := InputPort.needed webPage .browserInstance

def webPageOut : OutputPort := ⟨webPage, .browserInstance⟩

def textIn (name : String) : InputPort := InputPort.needed name .string

def textOut (name : String) : OutputPort := ⟨name, .string⟩

def selectorIn : InputPort := textIn "Selector"

def startAddress : InputPort :=
  ((textIn "Website URL").withHelp "eg: https://www.google.com").hidden

def definition : TaskKind -> TaskDefinition
  | .launchBrowser => ⟨"Open browser", [startAddress], [webPageOut], true⟩
  | .pageToHtml => ⟨"Get HTML from page", [webPageIn], [textOut "Html", webPageOut], false⟩
  | .extractTextFromElement =>
      ⟨"Extract text from element", [textIn "Html", selectorIn], [textOut "Extracted text"], false⟩
  | .fillInput => ⟨"Fill input", [webPageIn, selectorIn, textIn "Value"], [webPageOut], false⟩
  | .clickElement => ⟨"Click element", [webPageIn, selectorIn], [webPageOut], false⟩
  | .waitForElement =>
      ⟨"Wait for element",
        [webPageIn, selectorIn, (InputPort.needed "Visibility" .select).hidden],
        [webPageOut], false⟩
  | .navigateUrl => ⟨"Navigate URL", [webPageIn, textIn "URL"], [webPageOut], false⟩
  | .scrollToElement => ⟨"Scroll to element", [webPageIn, selectorIn], [webPageOut], false⟩
  | .deliverViaWebhook => ⟨"Deliver via webhook", [textIn "Target URL", textIn "Body"], [], false⟩
  | .extractDataWithAi =>
      ⟨"Extract data with AI",
        [textIn "Content", (InputPort.needed "Credentials" .credential).hidden, textIn "Prompt"],
        [textOut "Extracted data"], false⟩
  | .readPropertyFromJson =>
      ⟨"Read property from JSON", [textIn "JSON", textIn "Property name"],
        [textOut "Property value"], false⟩
  | .addPropertyToJson =>
      ⟨"Add property to JSON",
        [textIn "JSON", textIn "Property name", textIn "Property value"],
        [textOut "Update JSON"], false⟩

end TaskKind

end FlowPlan
