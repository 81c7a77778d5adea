import Statewright.Simulation.Sample.Basic

/-!
# Machines with nested states

Machines with a hierarchy: initial children, shallow and deep history, inherited transitions, and
a hierarchy without any nesting. The texts are for the driver of trials; no theorem is about them.
-/

namespace Statewright.Simulation.Sample

def generic : Sample :=
  { name := "generic"
    source :=
      [
        "mod generic \x7b",
        "    pub enum State \x7b A, B \x7d",
        "    pub enum Trigger \x7b Go, Back \x7d",
        "    #[state_machine(state = State, trigger = Trigger, structural_api = true, hierarchy)]",
        "    #[transition(from = A, trigger = Go, to = B, guard = \"ok\", action = \"act\")]",
        "    #[transition(from = B, trigger = Back, to = A)]",
        "    pub struct Gen<T: std::fmt::Debug> where T: Clone \x7b pub value: T, pub env: Env \x7d",
        "    impl<T: std::fmt::Debug> Gen<T> where T: Clone \x7b",
        "        fn ok(&self) -> bool \x7b .. \x7d",
        "        fn act(&mut self) \x7b .. \x7d",
        "    \x7d",
        "\x7d"] }

def lamp : Sample :=
  { name := "lamp"
    source :=
      [
        "mod lamp \x7b",
        "    pub enum State \x7b Off, On, Low, High \x7d",
        "    pub enum Trigger \x7b Power, Boost, Dim, Flip \x7d",
        "    #[state_machine(state = State, trigger = Trigger, hierarchy = true)]",
        "    #[state(state = On, on_entry = \"lamp_on\", on_exit = \"lamp_off\", history = \"Shallow\")]",
        "    #[state(state = Low, parent = On, initial, on_entry = \"enter_low\", on_exit = \"exit_low\")]",
        "    #[state(state = High, parent = On)]",
        "    #[transition(from = Off, trigger = Power, to = On)]",
        "    #[transition(from = On, trigger = Power, to = Off)]",
        "    #[transition(from = Low, trigger = Boost, to = High)]",
        "    #[transition(from = High, trigger = Dim, to = Low)]",
        "    #[transition(from = On, trigger = Flip, to = On)]",
        "    #[transition(from = Off, trigger = Boost, to = High)]",
        "    pub struct Lamp \x7b pub env: Env \x7d",
        "    impl Lamp \x7b",
        "        fn lamp_on(&mut self) \x7b .. \x7d",
        "        fn lamp_off(&mut self) \x7b .. \x7d",
        "        fn enter_low(&mut self) \x7b .. \x7d",
        "        fn exit_low(&mut self) \x7b .. \x7d",
        "    \x7d",
        "\x7d"] }

def navigator : Sample :=
  { name := "navigator"
    source :=
      [
        "mod navigator \x7b",
        "    pub enum State \x7b Closed, App, Home, Settings, Audio, Video \x7d",
        "    pub enum Trigger \x7b Open, Close, Configure, Next, Homeward \x7d",
        "    #[state_machine(state = State, trigger = Trigger, hierarchy = true, structural_api)]",
        "    #[state(state = App, history = Deep)]",
        "    #[state(state = Home, parent = App, initial)]",
        "    #[state(state = Settings, parent = App)]",
        "    #[state(state = Audio, parent = Settings, initial = true)]",
        "    #[state(state = Video, parent = Settings)]",
        "    #[transition(from = Closed, trigger = Open, to = App)]",
        "    #[transition(from = App, trigger = Close, to = Closed)]",
        "    #[transition(from = Home, trigger = Configure, to = Settings)]",
        "    #[transition(from = Audio, trigger = Next, to = Video)]",
        "    #[transition(from = Settings, trigger = Homeward, to = Home)]",
        "    #[transition(from = Settings, trigger = Configure, to = Settings)]",
        "    pub struct Navigator;",
        "\x7d"] }

def heater : Sample :=
  { name := "heater"
    source :=
      [
        "mod heater \x7b",
        "    pub enum State \x7b Off, On, Low, High, Turbo \x7d",
        "    pub enum Trigger \x7b Power, Heat, Cool \x7d",
        "    #[state_machine(state = State, trigger = Trigger, extensions)]",
        "    #[state(state = Low, parent = On, initial)]",
        "    #[state(state = High, parent = On, history = \"none\")]",
        "    #[state(state = Turbo, parent = High, initial, on_entry = \"roar\", on_exit = \"calm\")]",
        "    #[transition(from = Off, trigger = Power, to = On)]",
        "    #[transition(from = On, trigger = Power, to = Off)]",
        "    #[transition(from = Low, trigger = Power, to = High, guard = \"never\")]",
        "    #[transition(from = On, trigger = Heat, to = High, guard = \"outer\", action = \"outer_act\")]",
        "    #[transition(from = High, trigger = Heat, to = Low, guard = \"middle\", action = \"middle_act\")]",
        "    #[transition(from = Turbo, trigger = Heat, to = Off, guard = \"inner\", action = \"inner_act\")]",
        "    #[transition(from = Turbo, trigger = Power, to = Low)]",
        "    #[internal_transition(state = On, trigger = Cool, action = \"cool\", guard = \"outer\")]",
        "    pub struct Heater \x7b pub env: Env \x7d",
        "    impl Heater \x7b",
        "        fn roar(&mut self) -> Result<(), String> \x7b .. \x7d",
        "        fn calm(&mut self) \x7b .. \x7d",
        "        fn never(&self) -> bool \x7b .. \x7d",
        "        fn outer(&self) -> bool \x7b .. \x7d",
        "        fn middle(&self) -> bool \x7b .. \x7d",
        "        fn inner(&self) -> bool \x7b .. \x7d",
        "        fn outer_act(&mut self) \x7b .. \x7d",
        "        fn middle_act(&mut self) -> Result<(), String> \x7b .. \x7d",
        "        fn inner_act(&mut self) \x7b .. \x7d",
        "        fn cool(&mut self) \x7b .. \x7d",
        "    \x7d",
        "\x7d"] }

def vault : Sample :=
  { name := "vault"
    source :=
      [
        "mod vault \x7b",
        "    pub enum State \x7b Idle, Root, Left, L1, L2, Right, R1, R2, Deep \x7d",
        "    pub enum Trigger \x7b In, Out, Swap, Leaf, Self_, Up, Jump \x7d",
        "    #[state_machine(state = State, trigger = Trigger, payload = Num)]",
        "    #[state(state = Root, history = \"Deep\", on_entry = \"in_root\", on_exit = \"out_root\")]",
        "    #[state(state = Left, parent = Root, history = Shallow, on_entry = \"in_left\", on_exit = \"out_left\")]",
        "    #[state(state = L1, parent = Left, on_entry = \"in_l1\", on_exit = \"out_l1\")]",
        "    #[state(state = L2, parent = Left, on_exit = \"out_l2\")]",
        "    #[state(state = Right, parent = Root, initial, on_entry = \"in_right\", on_exit = \"out_right\")]",
        "    #[state(state = R1, parent = Right)]",
        "    #[state(state = R2, parent = Right, initial)]",
        "    #[state(state = Deep, parent = R2, initial, on_entry = \"in_deep\")]",
        "    #[transition(from = Idle, trigger = In, to = Root, action = \"enter_act\")]",
        "    #[transition(from = Root, trigger = Out, to = Idle)]",
        "    #[transition(from = Left, trigger = Swap, to = Right)]",
        "    #[transition(from = Right, trigger = Swap, to = Left)]",
        "    #[transition(from = L1, trigger = Leaf, to = L2, guard = \"g\")]",
        "    #[transition(from = L2, trigger = Leaf, to = L1)]",
        "    #[transition(from = Deep, trigger = Leaf, to = R1)]",
        "    #[transition(from = Root, trigger = Leaf, to = L2)]",
        "    #[transition(from = Left, trigger = Self_, to = Left)]",
        "    #[transition(from = L2, trigger = Self_, to = L2)]",
        "    #[transition(from = Root, trigger = Self_, to = Root)]",
        "    #[transition(from = Deep, trigger = Up, to = Right)]",
        "    #[transition(from = L1, trigger = Up, to = Root)]",
        "    #[transition(from = Root, trigger = Up, to = Deep)]",
        "    #[transition(from = Idle, trigger = Jump, to = L2)]",
        "    #[transition(from = Root, trigger = Jump, to = R1, guard = \"needs\", action = \"jumped\")]",
        "    pub struct Vault \x7b pub env: Env \x7d",
        "    impl Vault \x7b",
        "        fn in_root(&mut self) -> Result<(), String> \x7b .. \x7d",
        "        fn out_root(&mut self, p: Option<&Num>) \x7b .. \x7d",
        "        fn in_left(&mut self) \x7b .. \x7d",
        "        fn out_left(&mut self) -> Result<(), String> \x7b .. \x7d",
        "        fn in_l1(&mut self, p: &Num) \x7b .. \x7d",
        "        fn out_l1(&mut self) \x7b .. \x7d",
        "        fn out_l2(&mut self, p: &Num) -> Result<(), String> \x7b .. \x7d",
        "        fn in_right(&mut self) \x7b .. \x7d",
        "        fn out_right(&mut self) \x7b .. \x7d",
        "        fn in_deep(&mut self, p: Option<&Num>) -> Result<(), String> \x7b .. \x7d",
        "        fn enter_act(&mut self) -> Result<(), String> \x7b .. \x7d",
        "        fn g(&self, p: Option<&Num>) -> bool \x7b .. \x7d",
        "        fn needs(&self, p: &Num) -> bool \x7b .. \x7d",
        "        fn jumped(&mut self, p: &Num) \x7b .. \x7d",
        "    \x7d",
        "\x7d"] }

def histOnly : Sample :=
  { name := "hist_only"
    source :=
      [
        "mod hist_only \x7b",
        "    pub enum State \x7b Out, P, X, Y, Z \x7d",
        "    pub enum Trigger \x7b In, Leave, Next \x7d",
        "    #[state_machine(state = State, trigger = Trigger)]",
        "    #[state(state = P, history = \"SHALLOW\")]",
        "    #[state(state = X, parent = P)]",
        "    #[state(state = Y, parent = \"P\")]",
        "    #[state(state = Z, parent = 1)]",
        "    #[transition(from = Out, trigger = In, to = P)]",
        "    #[transition(from = P, trigger = Leave, to = Out)]",
        "    #[transition(from = X, trigger = Next, to = Y)]",
        "    #[transition(from = Y, trigger = Next, to = Z)]",
        "    #[transition(from = Z, trigger = Next, to = X)]",
        "    pub struct HistOnly;",
        "\x7d"] }

def asyncTree : Sample :=
  { name := "async_tree"
    source :=
      [
        "mod async_tree \x7b",
        "    pub enum State \x7b Off, On, A1, A2 \x7d",
        "    pub enum Trigger \x7b Power, Step, Ping \x7d",
        "    #[state_machine(state = State, trigger = Trigger, hierarchy, extensions)]",
        "    #[state(state = On, on_entry = \"on\", on_exit = \"off\", history = deep)]",
        "    #[state(state = A1, parent = On, initial, on_entry = \"in1\")]",
        "    #[state(state = A2, parent = On, on_exit = \"out2\")]",
        "    #[transition(from = Off, trigger = Power, to = On, guard = \"g\")]",
        "    #[transition(from = On, trigger = Power, to = Off, action = \"act\")]",
        "    #[transition(from = A1, trigger = Step, to = A2)]",
        "    #[transition(from = On, trigger = Step, to = A1, guard = \"back\")]",
        "    #[transition(from = A2, trigger = Power, to = A2, guard = \"hold\")]",
        "    #[internal_transition(state = On, trigger = Ping, action = \"ping\")]",
        "    pub struct AsyncTree \x7b pub env: Env \x7d",
        "    impl AsyncTree \x7b",
        "        async fn g(&self) -> Result<bool, String> \x7b .. \x7d",
        "        async fn act(&mut self, cancel: CancellationToken) -> Result<(), String> \x7b .. \x7d",
        "        async fn on(&mut self) \x7b .. \x7d",
        "        fn off(&mut self) \x7b .. \x7d",
        "        async fn in1(&mut self) -> Result<(), String> \x7b .. \x7d",
        "        fn out2(&mut self) -> std::pin::Pin<Box<dyn Future<Output = ()> + '_>> \x7b .. \x7d",
        "        fn back(&self) -> bool \x7b .. \x7d",
        "        fn hold(&self) -> impl Future<Output = bool> \x7b .. \x7d",
        "        async fn ping(&mut self, cancel: &CancellationToken) \x7b .. \x7d",
        "    \x7d",
        "\x7d"] }

def treeMulti : Sample :=
  { name := "tree_multi"
    source :=
      [
        "mod tree_multi \x7b",
        "    pub enum State \x7b Off, On, Lo, Hi \x7d",
        "    pub enum Trigger \x7b Power, Step \x7d",
        "    #[state_machine(state = State, trigger = Trigger, hierarchy, extensions, structural_api, payload = u32)]",
        "    #[payload_type(ty = Num, trigger = Step)]",
        "    #[state(state = On, on_entry = \"on\", on_exit = \"off\")]",
        "    #[state(state = Lo, parent = On, initial, on_entry = \"lo\")]",
        "    #[state(state = Hi, parent = On)]",
        "    #[transition(from = Off, trigger = Power, to = On, guard = \"g\")]",
        "    #[transition(from = On, trigger = Power, to = Off)]",
        "    #[transition(from = Lo, trigger = Step, to = Hi, guard = \"n\", action = \"act\")]",
        "    #[transition(from = On, trigger = Step, to = Lo, action = \"fallback\")]",
        "    pub struct TreeMulti \x7b pub env: Env \x7d",
        "    impl TreeMulti \x7b",
        "        fn on(&mut self, p: Option<&u32>) \x7b .. \x7d",
        "        fn off(&mut self, p: &u32) \x7b .. \x7d",
        "        fn lo(&mut self) -> Result<(), String> \x7b .. \x7d",
        "        fn g(&self, p: Option<&u32>) -> bool \x7b .. \x7d",
        "        fn n(&self, p: Option<&Num>) -> bool \x7b .. \x7d",
        "        fn act(&mut self, p: &Num) \x7b .. \x7d",
        "        fn fallback(&mut self, p: Option<&Num>) -> Result<(), String> \x7b .. \x7d",
        "    \x7d",
        "\x7d"] }

end Statewright.Simulation.Sample
