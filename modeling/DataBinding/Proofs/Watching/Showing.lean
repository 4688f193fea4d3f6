import DataBinding.Proofs.Compiling.Handling
import DataBinding.Proofs.Runs.Outcomes

/-!
# Stores in which only built-in bindings watch

After a tree has been mounted with the handlers that come with the library, every subscriber is a watcher
that shows something: the value of a node or the text of a node. Such a watcher writes nothing into the
model, so a notify cycle among them nests with no other: it is a sequence of turns, one for each entry,
over a model that stands still. `Turn` lists what a turn can come to.
-/

set_option autoImplicit false

namespace DataBinding

variable {ρ σ : Type}

/-! ## Writing views -/

namespace View

variable {v : View ρ} {node target : NodeId}

/-- What a reader sees of a node's text: the text, and how often it was written. -/
def shownText (v : View ρ) (node : NodeId) : String × Nat := ((v.node node).text, (v.node node).textWrites)

/-- A shown value leaves every node of the kind it is. -/
theorem kind_setValue (v : View ρ) (node target : NodeId) (value : String) :
    ((v.setValue target value).node node).kind = (v.node node).kind :=
  kind_update fun _ => rfl

/-- Writing a text leaves every node of the view what it is. -/
theorem kind_setText (hlt : node.index < v.nodes.size) (text : String) :
    ((v.setText target text).node node).kind = (v.node node).kind := by
  unfold setText
  split
  · let v' := (v.add { kind := .text, text }).2
    have hkind : ((v'.update target fun n => { n with
        children := [(v.add { kind := .text, text }).1],
        textWrites := n.textWrites + 1 }).node node).kind = (v'.node node).kind :=
      kind_update fun _ => rfl
    rw [node_add_of_lt hlt] at hkind
    exact hkind
  · exact kind_update fun _ => rfl

/-- A text that is written into a text node is there afterwards. -/
theorem text_setText (hlt : node.index < v.nodes.size) (hkind : (v.node node).kind = .text)
    (text : String) : ((v.setText node text).node node).text = text := by
  unfold setText
  rw [hkind]
  simp only [node_update, hlt, and_self, if_true]

/-- A shown value changes no text. -/
theorem shownText_setValue (v : View ρ) (node target : NodeId) (value : String) :
    (v.setValue target value).shownText node = v.shownText node := by
  unfold shownText setValue
  rw [node_update]
  split <;> rfl

end View

/-! ## Watchers that show something -/

/-- A watcher shows something, and if it shows the text of a certain node, it is of a certain template. -/
structure Watcher.Shows (root : Value) (node : NodeId) (template : Template) (w : Watcher ρ) : Prop where
  enabled : w.disposed = false
  refreshes : w.policy = .refresh
  builtIn : (∃ target, w.reaction = .showValue target) ∨
    ∃ target other, w.reaction = .showText target other root
  agrees : ∀ other base, w.reaction = .showText node other base → other = template ∧ base = root

/-- A watcher that shows something still does when it has received a value. -/
theorem Watcher.Shows.receive {root : Value} {node : NodeId} {template : Template} {w : Watcher ρ}
    (h : w.Shows root node template) (value : Value) : (w.receive value).Shows root node template :=
  ⟨h.enabled, h.refreshes, h.builtIn, h.agrees⟩

/-- Every subscriber is a watcher that shows something, and a certain text shows a certain template. -/
structure Store.Shows (root : Value) (node : NodeId) (template : Template) (s : Store ρ σ) : Prop where
  idle : s.collector = none
  watching : ∀ {id subscriber}, s.subscriber? id = some subscriber →
    ∃ handles w, subscriber = ⟨handles + 1, .watching w⟩ ∧ w.Shows root node template
  inView : node.index < s.view.nodes.size
  isText : (s.view.node node).kind = .text

/-- What a watcher's reaction does to the view. -/
inductive Shown (m : Model) (v : View ρ) : Reaction ρ → View ρ → Prop where
  | value (node : NodeId) (text : String) : Shown m v (.showValue node) (v.setValue node text)
  | text (node : NodeId) (template : Template) (root : Value) (text : String)
      (hrender : m.render? template root = some (.ok text)) :
      Shown m v (.showText node template root) (v.setText node text)

/-- What the turn of a watcher in a notify cycle comes to. -/
inductive Turn (id : SubscriberId) (w : Watcher ρ) (s s' : Store ρ σ) : Except Error Unit → Prop where
  | agreed (value : Value) (hfound : s.model.peek w.path w.root = .ok value)
      (hsame : value.strictEq w.baseline = true) (hmodel : s'.model = s.model)
      (hsubscribers : s'.subscribers = s.subscribers) (hview : s'.view = s.view) : Turn id w s s' (.ok ())
  | delivered (value : Value) (hfound : s.model.peek w.path w.root = .ok value)
      (hother : value.strictEq w.baseline = false) (hmodel : s'.model = s.model)
      (hsubscribers : s'.subscribers = (s.updateWatcher id (·.receive value)).subscribers)
      (hshown : Shown s.model s.view w.reaction s'.view) : Turn id w s s' (.ok ())
  | failed (e : Error) (hmodel : s'.model = s.model)
      (hsubscribers : s'.subscribers = s.subscribers ∨
        ∃ value, s'.subscribers = (s.updateWatcher id (·.receive value)).subscribers)
      (hview : s'.view = s.view) : Turn id w s s' (.error e)

/-! ## Holding an entry during its turn -/

namespace Store

variable {s s' : Store ρ σ} {id : SubscriberId} {w : Watcher ρ} {handles : Nat}

/-- Letting go of an entry that nothing has happened to. -/
theorem release_retained (hentry : s.subscriber? id = some ⟨handles + 1, .watching w⟩)
    (h : s'.subscribers = (s.retain id).subscribers) :
    (s'.release id).subscribers = s.subscribers := by
  have hentry : s.subscribers[id.index]? = some ⟨handles + 1, .watching w⟩ := hentry
  apply Array.ext_getElem?
  intro i
  simp only [release, updateSubscriber, h, retain, Array.getElem?_modify]
  by_cases hi : id.index = i
  · subst hi
    simp [hentry, Subscriber.isAlive]
  · simp [hi]

/-- Letting go of an entry whose watcher has changed. -/
theorem release_received (hentry : s.subscriber? id = some ⟨handles + 1, .watching w⟩)
    {f : Watcher ρ → Watcher ρ} (h : s'.subscribers = ((s.retain id).updateWatcher id f).subscribers) :
    (s'.release id).subscribers = (s.updateWatcher id f).subscribers := by
  have hentry : s.subscribers[id.index]? = some ⟨handles + 1, .watching w⟩ := hentry
  apply Array.ext_getElem?
  intro i
  simp only [release, updateSubscriber, h, updateWatcher, retain, Array.getElem?_modify]
  by_cases hi : id.index = i
  · subst hi
    simp [hentry, Subscriber.isAlive]
  · simp [hi]

end Store

namespace Run

variable {respond : Respond ρ σ} {s s' : Store ρ σ} {id : SubscriberId} {w : Watcher ρ}
  {root : Value} {node : NodeId} {template : Template} {result : Except Error Unit}

/-- A reaction of a watcher that shows something writes the view, or fails and leaves it alone. -/
theorem react_shown (hw : w.Shows root node template) {value : Value}
    (h : react respond w.reaction value s = some (result, s')) :
    s'.model = s.model ∧ s'.subscribers = s.subscribers ∧ s'.collector = s.collector ∧
      ((∃ e, result = .error e ∧ s'.view = s.view) ∨
        (result = .ok () ∧ Shown s.model s.view w.reaction s'.view)) := by
  obtain ⟨target, hreaction⟩ | ⟨target, other, hreaction⟩ := hw.builtIn
  · rw [hreaction, react_showValue] at h
    rw [hreaction]
    obtain ⟨text, -, heq⟩ := Option.map_eq_some_iff.1 h
    cases heq
    exact ⟨rfl, rfl, rfl, .inr ⟨rfl, .value target _⟩⟩
  · rw [hreaction, react_showText] at h
    rw [hreaction]
    obtain ⟨outcome, hrender, heq⟩ := Option.map_eq_some_iff.1 h
    cases outcome with
    | error e =>
      cases heq
      exact ⟨rfl, rfl, rfl, .inl ⟨e, rfl, rfl⟩⟩
    | ok text =>
      cases heq
      exact ⟨rfl, rfl, rfl, .inr ⟨rfl, .text target other root text hrender⟩⟩

/-- An update of a watcher that shows something is a turn. -/
theorem update_turn {handles : Nat} (hentry : s.subscriber? id = some ⟨handles, .watching w⟩)
    (hw : w.Shows root node template) (h : update respond id s = some (result, s')) :
    s'.collector = s.collector ∧ Turn id w s s' result := by
  unfold update at h
  rw [change_bind, look_bind] at h
  have hentry' : (s.record (.updating id)).subscriber? id = some ⟨handles, .watching w⟩ := hentry
  rw [hentry'] at h
  simp only [updateWatcher, hw.enabled, Bool.false_eq_true, if_false] at h
  rw [peek_bind] at h
  cases hfound : (s.record (.updating id)).model.peek w.path w.root with
  | error e =>
    rw [hfound, orRaise_error_bind] at h
    cases h
    exact ⟨rfl, .failed e rfl (.inl rfl) rfl⟩
  | ok value =>
    rw [hfound, orRaise_ok_bind, change_bind] at h
    split at h
    · next hsame =>
      cases h
      exact ⟨rfl, .agreed value hfound hsame rfl rfl rfl⟩
    · next hother =>
      have hother : value.strictEq w.baseline = false := by simpa using hother
      have h : react respond w.reaction value ((((s.record (.updating id)).record
          (.resolved id value)).updateWatcher id (·.receive value)).record (.delivered id value)) =
          some (result, s') := h
      obtain ⟨hmodel, hsubscribers, hcollector, hfailed | hshown⟩ := react_shown hw h
      · obtain ⟨e, rfl, hview⟩ := hfailed
        exact ⟨hcollector, .failed e hmodel (.inr ⟨value, hsubscribers⟩) hview⟩
      · obtain ⟨rfl, hshown⟩ := hshown
        exact ⟨hcollector, .delivered value hfound hother hmodel hsubscribers hshown⟩

/-- The same for an entry of a list: it is held during its turn, and as before after it. -/
theorem visit_turn {handles : Nat} (hentry : s.subscriber? id = some ⟨handles + 1, .watching w⟩)
    (hw : w.Shows root node template) (h : visit (update respond) id s = some (result, s')) :
    s'.collector = s.collector ∧ Turn id w s s' result := by
  obtain ⟨s₁, hupdate, rfl⟩ := told_of_visit (Store.isLive_of_entry hentry hw.enabled) h
  obtain ⟨hcollector, hturn⟩ := update_turn (Store.subscriber?_retain hentry) hw hupdate
  refine ⟨hcollector, ?_⟩
  cases hturn with
  | agreed value hfound hsame hmodel hsubscribers hview =>
    exact .agreed value hfound hsame hmodel (Store.release_retained hentry hsubscribers) hview
  | delivered value hfound hother hmodel hsubscribers hshown =>
    exact .delivered value hfound hother hmodel (Store.release_received hentry hsubscribers) hshown
  | failed e hmodel hsubscribers hview =>
    refine .failed e hmodel ?_ hview
    rcases hsubscribers with hsubscribers | ⟨value, hsubscribers⟩
    · exact .inl (Store.release_retained hentry hsubscribers)
    · exact .inr ⟨value, Store.release_received hentry hsubscribers⟩

end Run

end DataBinding
