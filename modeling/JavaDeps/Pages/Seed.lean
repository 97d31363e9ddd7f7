import JavaDeps.Value.Basic

/-!
# Functions to start with

Page functions with which a table can be filled.

The file defines:
- `sampleFunctions` and `projectFunctions`, as records of an id and a name;
- `shopFunctions`, with descriptions, and `shopControllers`, which link them to controllers;
- `linkedFunctions`, with the controllers in the rows.
-/

namespace JavaDeps

/-- An id with a name. -/
structure NamedFunction where
  id : String
  name : String
  deriving DecidableEq, Repr

def NamedFunction.toValue (f : NamedFunction) : Value :=
  .obj [("function_id", .str f.id), ("function_name", .str f.name)]

def sampleFunctions : List NamedFunction :=
  [⟨"1", "loginForm()"⟩,
   ⟨"2", "userRegistration()"⟩,
   ⟨"3", "userProfile()"⟩,
   ⟨"4", "orderSubmit()"⟩,
   ⟨"5", "orderList()"⟩,
   ⟨"6", "orderStatus()"⟩,
   ⟨"7", "productSearch()"⟩,
   ⟨"8", "productDetail()"⟩,
   ⟨"9", "paymentProcess()"⟩,
   ⟨"10", "addressManagement()"⟩]

/-- Functions for users, orders, products, payments, notifications, addresses and administration. -/
def projectFunctions : List NamedFunction :=
  [⟨"1", "User Login Form"⟩,
   ⟨"2", "User Registration Form"⟩,
   ⟨"3", "User Profile Page"⟩,
   ⟨"4", "Edit User Profile"⟩,
   ⟨"5", "Create New Order"⟩,
   ⟨"6", "View Order List"⟩,
   ⟨"7", "Order Status Tracking"⟩,
   ⟨"8", "Cancel Order"⟩,
   ⟨"9", "Product Search"⟩,
   ⟨"10", "Product Detail View"⟩,
   ⟨"11", "Add to Cart"⟩,
   ⟨"12", "Payment Processing"⟩,
   ⟨"13", "Payment History"⟩,
   ⟨"14", "Notification Settings"⟩,
   ⟨"15", "Push Notifications"⟩,
   ⟨"16", "Manage Addresses"⟩,
   ⟨"17", "Add New Address"⟩,
   ⟨"18", "User Management Dashboard"⟩,
   ⟨"19", "Order Management Dashboard"⟩,
   ⟨"20", "Product Management Dashboard"⟩]

/-- A function with a description. -/
structure ShopFunction where
  name : String
  file : String
  description : String
  deriving DecidableEq, Repr

def shopFunctions : List ShopFunction :=
  [⟨"User Registration Form", "Frontend/User Registration",
    "HTML/JS function: User registration with email, password, fullname validation"⟩,
   ⟨"User Login Form", "Frontend/User Login",
    "HTML/JS function: User authentication and login"⟩,
   ⟨"Forgot Password Form", "Frontend/Password Recovery",
    "HTML/JS function: Send OTP for password recovery"⟩,
   ⟨"Get User Info Function", "Frontend/User Profile",
    "HTML/JS function: Retrieve user information by ID"⟩,
   ⟨"Product List Display", "Frontend/Product Catalog",
    "HTML/JS function: Display all products with pagination"⟩,
   ⟨"Product Search Function", "Frontend/Product Search",
    "HTML/JS function: Search products by name with filters"⟩,
   ⟨"Category Products Display", "Frontend/Category Browse",
    "HTML/JS function: Show products filtered by category"⟩,
   ⟨"Category Navigation Menu", "Frontend/Category Menu",
    "HTML/JS function: Display hierarchical category navigation"⟩,
   ⟨"Root Categories Display", "Frontend/Main Categories",
    "HTML/JS function: Show main category sections"⟩,
   ⟨"Shopping Cart View", "Frontend/Shopping Cart",
    "HTML/JS function: Display user shopping cart with items"⟩,
   ⟨"Add to Cart Function", "Frontend/Cart Actions",
    "HTML/JS function: Add products to shopping cart"⟩,
   ⟨"Remove from Cart Function", "Frontend/Cart Management",
    "HTML/JS function: Remove items from shopping cart"⟩,
   ⟨"User Order History", "Frontend/Order History",
    "HTML/JS function: Display user order history and status"⟩,
   ⟨"Order Details View", "Frontend/Order Details",
    "HTML/JS function: Show detailed order information"⟩,
   ⟨"Checkout Process", "Frontend/Checkout",
    "HTML/JS function: Handle order checkout and payment"⟩,
   ⟨"Product Reviews Display", "Frontend/Product Reviews",
    "HTML/JS function: Show product reviews and ratings"⟩,
   ⟨"User Reviews Display", "Frontend/User Reviews",
    "HTML/JS function: Display reviews written by user"⟩,
   ⟨"Create Review Form", "Frontend/Review Form",
    "HTML/JS function: Submit product review and rating"⟩,
   ⟨"Product Detail View", "Frontend/Product Details",
    "HTML/JS function: Display detailed product information"⟩,
   ⟨"User Profile Management", "Frontend/Profile Settings",
    "HTML/JS function: Update user profile information"⟩]

/-- The controllers of the functions of a shop, by the ids that these get in an empty table. -/
def shopControllers : List (String × String) :=
  [("html_1", "UserController"),
   ("html_2", "UserController"),
   ("html_3", "UserController"),
   ("html_4", "UserController"),
   ("html_20", "UserController"),
   ("html_5", "ProductController"),
   ("html_6", "ProductController"),
   ("html_7", "ProductController"),
   ("html_19", "ProductController"),
   ("html_8", "CategoryController"),
   ("html_9", "CategoryController"),
   ("html_10", "CartController"),
   ("html_11", "CartController"),
   ("html_12", "CartController"),
   ("html_13", "OrderController"),
   ("html_14", "OrderController"),
   ("html_15", "OrderController"),
   ("html_16", "ReviewController"),
   ("html_17", "ReviewController"),
   ("html_18", "ReviewController")]

/-- A function with its id and its controller. -/
structure LinkedFunction where
  id : Int
  name : String
  controller : String
  deriving DecidableEq, Repr

def linkedFunctions : List LinkedFunction :=
  [⟨1, "registerUser()", "UserController"⟩,
   ⟨2, "loginUser()", "UserController"⟩,
   ⟨3, "forgotPassword()", "UserController"⟩,
   ⟨4, "getUserInfo()", "UserController"⟩,
   ⟨5, "getAllProducts()", "ProductController"⟩,
   ⟨6, "searchProducts()", "ProductController"⟩,
   ⟨7, "getProductsByCategory()", "ProductController"⟩,
   ⟨8, "getAllCategories()", "CategoryController"⟩,
   ⟨9, "getRootCategories()", "CategoryController"⟩,
   ⟨10, "getCartByUser()", "CartController"⟩,
   ⟨11, "addToCart()", "CartController"⟩,
   ⟨12, "removeFromCart()", "CartController"⟩,
   ⟨13, "getUserOrders()", "OrderController"⟩,
   ⟨14, "getOrderById()", "OrderController"⟩,
   ⟨15, "checkout()", "OrderController"⟩,
   ⟨16, "getProductReviews()", "ReviewController"⟩,
   ⟨17, "getUserReviews()", "ReviewController"⟩,
   ⟨18, "createReview()", "ReviewController"⟩]

end JavaDeps
