import Statewright.Simulation.Sample.Basic

/-!
# Machines with payloads

Machines that carry payloads: of one type, of one type for each trigger, or of a type declared
on a method. The texts are for the driver of trials; no theorem is about them.
-/

namespace Statewright.Simulation.Sample

def checkout : Sample :=
  { name := "checkout"
    source :=
      [
        "mod checkout \x7b",
        "    pub enum State \x7b Open, Submitted, Closed \x7d",
        "    pub enum Trigger \x7b Submit, Cancel, Close \x7d",
        "    #[state_machine(state = State, trigger = Trigger, payload = Num)]",
        "    #[transition(from = Open, trigger = Submit, to = Submitted, guard = \"valid\", action = \"record\")]",
        "    #[transition(from = Submitted, trigger = Cancel, to = Open, guard = \"maybe\", action = \"note\")]",
        "    #[transition(from = Submitted, trigger = Close, to = Closed, action = \"plain\")]",
        "    #[internal_transition(state = Submitted, trigger = Submit, action = \"again\", guard = \"checked\")]",
        "    #[transition(from = Closed, trigger = Submit, to = Open, guard = \"checked\")]",
        "    #[state(state = Submitted, on_entry = \"in_req\", on_exit = \"out_opt\")]",
        "    #[state(state = Closed, on_entry = \"in_fail\", on_exit = \"out_req\")]",
        "    pub struct Checkout \x7b pub env: Env \x7d",
        "    impl Checkout \x7b",
        "        fn valid(&self, p: &Num) -> bool \x7b .. \x7d",
        "        fn record(&mut self, p: &Num) \x7b .. \x7d",
        "        fn maybe(&self, p: Option<&Num>) -> bool \x7b .. \x7d",
        "        fn note(&mut self, p: Option<&Num>) \x7b .. \x7d",
        "        fn plain(&mut self) \x7b .. \x7d",
        "        fn again(&mut self, p: &Num) -> Result<(), String> \x7b .. \x7d",
        "        fn checked(&self, p: &Num) -> Result<bool, String> \x7b .. \x7d",
        "        fn in_req(&mut self, p: &Num) \x7b .. \x7d",
        "        fn out_opt(&mut self, p: Option<&Num>) \x7b .. \x7d",
        "        fn in_fail(&mut self, p: Option<&Num>) -> Result<(), String> \x7b .. \x7d",
        "        fn out_req(&mut self, p: &Num) -> Result<(), String> \x7b .. \x7d",
        "    \x7d",
        "\x7d"] }

def primitive : Sample :=
  { name := "primitive"
    source :=
      [
        "mod primitive \x7b",
        "    pub enum State \x7b A, B \x7d",
        "    pub enum Trigger \x7b Go, Back \x7d",
        "    #[state_machine(state = State, trigger = Trigger, payload = \"u32\")]",
        "    #[transition(from = A, trigger = Go, to = B, guard = \"g\")]",
        "    #[transition(from = B, trigger = Back, to = A)]",
        "    pub struct Primitive \x7b pub env: Env \x7d",
        "    impl Primitive \x7b",
        "        fn g(&self, p: Option<&u32>) -> bool \x7b .. \x7d",
        "    \x7d",
        "\x7d"] }

def till : Sample :=
  { name := "till"
    source :=
      [
        "mod till \x7b",
        "    pub enum State \x7b Open, Paid, Closed \x7d",
        "    pub enum Trigger \x7b Pay, Reverse, Close \x7d",
        "    #[state_machine(state = State, trigger = Trigger)]",
        "    #[payload_type(ty = Num, trigger = Pay)]",
        "    #[payload_type(ty = Text, trigger = Trigger::Reverse)]",
        "    #[transition(from = Open, trigger = Pay, to = Paid, guard = \"counted\", action = \"take\")]",
        "    #[transition(from = Paid, trigger = Reverse, to = Open, action = \"give_back\")]",
        "    #[transition(from = Open, trigger = Close, to = Closed)]",
        "    #[transition(from = Paid, trigger = Pay, to = Paid, guard = \"needs\")]",
        "    #[transition(from = Closed, trigger = Reverse, to = Open, guard = \"opt_text\")]",
        "    #[state(state = Open, on_entry = \"any_entry\")]",
        "    pub struct Till \x7b pub env: Env \x7d",
        "    impl Till \x7b",
        "        fn counted(&self) -> bool \x7b .. \x7d",
        "        fn take(&mut self, p: &Num) \x7b .. \x7d",
        "        fn give_back(&mut self, p: Option<&Text>) \x7b .. \x7d",
        "        fn needs(&self, p: &Num) -> bool \x7b .. \x7d",
        "        fn opt_text(&self, p: Option<&Text>) -> bool \x7b .. \x7d",
        "        fn any_entry(&mut self, p: Option<&Num>) \x7b .. \x7d",
        "    \x7d",
        "\x7d"] }

def tillDefault : Sample :=
  { name := "till_default"
    source :=
      [
        "mod till_default \x7b",
        "    pub enum State \x7b Open, Paid, Closed \x7d",
        "    pub enum Trigger \x7b Pay, Reverse, Close, Ping \x7d",
        "    #[state_machine(state = State, trigger = Trigger, payload = Empty)]",
        "    #[payload_type(ty = Num, trigger = Pay)]",
        "    #[payload_type(ty = \"Text\", trigger = 1)]",
        "    #[payload_type(ty = Num, trigger = Pay)]",
        "    #[transition(from = Open, trigger = Pay, to = Paid, guard = \"counted\", action = \"take\")]",
        "    #[transition(from = Paid, trigger = Reverse, to = Open, action = \"give_back\")]",
        "    #[transition(from = Open, trigger = Close, to = Closed, guard = \"seal\")]",
        "    #[internal_transition(state = Closed, trigger = Ping, action = \"ping\")]",
        "    #[state(state = Paid, on_entry = \"empty_entry\", on_exit = \"empty_exit\")]",
        "    pub struct TillDefault \x7b pub env: Env \x7d",
        "    impl TillDefault \x7b",
        "        fn counted(&self) -> Result<bool, String> \x7b .. \x7d",
        "        fn take(&mut self, p: &Num) -> Result<(), String> \x7b .. \x7d",
        "        fn give_back(&mut self, p: &Text) \x7b .. \x7d",
        "        fn seal(&self, p: &Empty) -> bool \x7b .. \x7d",
        "        fn ping(&mut self, p: Option<&Empty>) \x7b .. \x7d",
        "        fn empty_entry(&mut self, p: &Empty) \x7b .. \x7d",
        "        fn empty_exit(&mut self, p: Option<&Empty>) \x7b .. \x7d",
        "    \x7d",
        "\x7d"] }

def methodPayload : Sample :=
  { name := "method_payload"
    source :=
      [
        "mod method_payload \x7b",
        "    pub enum State \x7b A, B \x7d",
        "    pub enum Trigger \x7b Go, Back \x7d",
        "    #[state_machine(state = State, trigger = Trigger)]",
        "    #[transition(from = A, trigger = Go, to = B, action = \"go\")]",
        "    #[transition(from = B, trigger = Back, to = A, action = \"back\")]",
        "    pub struct MethodPayload \x7b pub env: Env \x7d",
        "    impl MethodPayload \x7b",
        "        #[payload_type(ty = Num, trigger = Go)]",
        "        fn go(&mut self, p: &Num) \x7b .. \x7d",
        "        #[payload_type(ty = u32, trigger = Back)]",
        "        fn back(&mut self, p: Option<&u32>) \x7b .. \x7d",
        "    \x7d",
        "\x7d"] }

def forcedMulti : Sample :=
  { name := "forced_multi"
    source :=
      [
        "mod forced_multi \x7b",
        "    pub enum State \x7b A, B \x7d",
        "    pub enum Trigger \x7b Go, Back \x7d",
        "    #[state_machine(state = State, trigger = Trigger, payload = Num, variant = with_multi_payload)]",
        "    #[transition(from = A, trigger = Go, to = B, guard = \"g\")]",
        "    #[transition(from = B, trigger = Back, to = A, action = \"a\")]",
        "    pub struct ForcedMulti \x7b pub env: Env \x7d",
        "    impl ForcedMulti \x7b",
        "        fn g(&self, p: Option<&Num>) -> bool \x7b .. \x7d",
        "        fn a(&mut self, p: &Num) \x7b .. \x7d",
        "    \x7d",
        "\x7d"] }

end Statewright.Simulation.Sample
